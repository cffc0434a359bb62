/-
# `TigPool.WorkQueue` — a request, its reservation and its precommit

A member's offer waits in the queue until it is reserved or expires.  `Db.Booked` says how
the table of requests and the table of reservations stand to each other: a request is
reserved exactly when it names a reservation, and the reservation names the request.  Only
`reserve_next` writes to both, in one transaction, so they never come apart; with the
coupling of reservations and precommits the three tables are in one-to-one step.
-/
import TigPool.Outbox
import TigPool.Responses

namespace TigPool

open Basis

/-! ## Requests and reservations -/

/-- What a request asks for, and who asks. -/
def WorkRequest.terms (w : WorkRequest) : Uuid × String × Offer :=
  (w.memberId, w.requestKey, w.offer)

/-- The request goes on waiting, for longer or no longer. -/
structure WorkRequest.Waits (w w' : WorkRequest) : Prop where
  terms : w'.terms = w.terms
  reservationId : w'.reservationId = w.reservationId
  state : w'.state = w.state ∨ w.state = .queued ∧ w'.state = .expired

namespace WorkRequest.Waits

variable {w w' : WorkRequest}

theorem refl (w : WorkRequest) : w.Waits w := ⟨rfl, rfl, .inl rfl⟩

theorem memberId (h : w.Waits w') : w'.memberId = w.memberId :=
  congrArg Prod.fst h.terms

theorem requestKey (h : w.Waits w') : w'.requestKey = w.requestKey :=
  congrArg (fun t => t.2.1) h.terms

theorem reserved_iff (h : w.Waits w') : w'.state = .reserved ↔ w.state = .reserved := by
  rcases h.state with heq | ⟨hqueued, hexpired⟩
  · rw [heq]
  · simp [hqueued, hexpired]

end WorkRequest.Waits

namespace Db

/-- A reservation was made for the request. -/
def Yields (db : Db) (requestId id : Uuid) : Prop :=
  ∃ r, db.funds.reservations.lookup id = some r ∧ r.requestKey = requestId

/-- Requests that are reserved and reservations name each other. -/
structure Booked (db : Db) : Prop where
  /-- A member uses a key once. -/
  unique : ∀ {id id' w w'}, db.work.workRequests.lookup id = some w →
    db.work.workRequests.lookup id' = some w' → w.memberId = w'.memberId →
    w.requestKey = w'.requestKey → id = id'
  reserved : ∀ {id w}, db.work.workRequests.lookup id = some w →
    (w.state = .reserved ↔ w.reservationId.isSome)
  reservation : ∀ {id w rid}, db.work.workRequests.lookup id = some w →
    w.reservationId = some rid → db.Yields id rid
  request : ∀ {rid r}, db.funds.reservations.lookup rid = some r →
    ∃ w, db.work.workRequests.lookup r.requestKey = some w ∧ w.memberId = r.memberId ∧
      w.reservationId = some rid

/-- The reservation is made for the request, which waits with a good offer, at the newest
block, of whose round it is and on which no evidence conflicts. -/
structure Booking (db db' : Db) (id rid : Uuid) (w : WorkRequest) (r : Reservation) : Prop where
  waiting : (WorkRequests.expireQueued db).work.workRequests.lookup id = some w
  queued : w.state = .queued
  fresh : rid ∉ db.funds.reservations
  memberId : r.memberId = w.memberId
  requestKey : r.requestKey = id
  current : ∃ blockId block, WorkRequests.newestBlock db = some (blockId, block) ∧
    Reports.hasUnresolvedConflict db block.height = false ∧ r.creationRound = block.round
  requests : db'.work.workRequests = AList.insert id
    { w with state := .reserved, reservationId := some rid }
    (WorkRequests.expireQueued db).work.workRequests
  reservations : db'.funds.reservations = AList.insert rid r db.funds.reservations

/-- What a transaction does to requests and reservations. -/
inductive Books (db db' : Db) : Prop
  /-- Requests wait, reservations go on. -/
  | rests : (∀ id, Evolves (fun _ => False) WorkRequest.Waits
        (db.work.workRequests.lookup id) (db'.work.workRequests.lookup id)) →
      (∀ {id r'}, db'.funds.reservations.lookup id = some r' →
        ∃ r, db.funds.reservations.lookup id = some r ∧ r.Extends r') →
      Basis.Extends Reservation.Extends db.funds.reservations db'.funds.reservations → Books db db'
  | asked {id : Uuid} {w : WorkRequest} : id ∉ db.work.workRequests →
      (∀ id' w', db.work.workRequests.lookup id' = some w' →
        ¬ (w'.memberId = w.memberId ∧ w'.requestKey = w.requestKey)) →
      w.state = .queued → w.reservationId = none → db' = db.putRequest id w → Books db db'
  | booked {id rid : Uuid} {w : WorkRequest} {r : Reservation} : db.Booking db' id rid w r →
      Books db db'

end Db

/-! ## They stay in step -/

theorem WorkRequests.expireQueued_waits (db : Db) (id : Uuid) :
    Evolves (fun _ => False) WorkRequest.Waits (db.work.workRequests.lookup id)
      ((expireQueued db).work.workRequests.lookup id) := by
  have hlookup : (expireQueued db).work.workRequests.lookup id = _ := Table.lookup_mapVals
  rw [hlookup]
  cases db.work.workRequests.lookup id with
  | none => exact .same
  | some w =>
      refine .turned ?_
      simp only
      split
      next hexpires => exact ⟨rfl, rfl, .inr ⟨hexpires.1, rfl⟩⟩
      next => exact .refl w

/-- What is still queued was queued, and its offer is good. -/
theorem WorkRequests.expireQueued_queued {db : Db} {id : Uuid} {w : WorkRequest}
    (h : (expireQueued db).work.workRequests.lookup id = some w) (hqueued : w.state = .queued) :
    db.work.workRequests.lookup id = some w ∧ db.clock < w.expiresAt := by
  have hlookup : (expireQueued db).work.workRequests.lookup id = _ := Table.lookup_mapVals
  rw [hlookup] at h
  obtain ⟨w₀, hw₀, heq⟩ := Option.map_eq_some_iff.mp h
  split at heq
  next =>
    rw [← heq] at hqueued
    cases hqueued
  next hnot =>
    obtain rfl := heq
    exact ⟨hw₀, not_le.mp fun hle => hnot ⟨hqueued, hle⟩⟩

namespace Db.Booked

variable {db db' : Db}

theorem yields_unique (hb : db.Booked) {id rid rid' : Uuid} (h : db.Yields id rid)
    (h' : db.Yields id rid') : rid = rid' := by
  obtain ⟨r, hr, rfl⟩ := h
  obtain ⟨r', hr', hkey⟩ := h'
  obtain ⟨w, hw, -, hname⟩ := hb.request hr
  obtain ⟨w', hw', -, hname'⟩ := hb.request hr'
  rw [hkey, hw] at hw'
  obtain rfl := Option.some.inj hw'
  exact Option.some.inj (hname.symm.trans hname')

/-- A request is reserved exactly when a reservation was made for it. -/
theorem reserved_iff (hb : db.Booked) {id : Uuid} {w : WorkRequest}
    (hw : db.work.workRequests.lookup id = some w) :
    w.state = .reserved ↔ ∃ rid, db.Yields id rid := by
  rw [hb.reserved hw]
  constructor
  · intro hsome
    obtain ⟨rid, hrid⟩ := Option.isSome_iff_exists.mp hsome
    exact ⟨rid, hb.reservation hw hrid⟩
  · rintro ⟨rid, r, hr, rfl⟩
    obtain ⟨w', hw', -, hname⟩ := hb.request hr
    obtain rfl := Option.some.inj (hw.symm.trans hw')
    exact Option.isSome_of_eq_some hname

theorem rests (hb : db.Booked) (hrequests : ∀ id, Evolves (fun _ => False) WorkRequest.Waits
      (db.work.workRequests.lookup id) (db'.work.workRequests.lookup id))
    (hold : ∀ {id r'}, db'.funds.reservations.lookup id = some r' →
      ∃ r, db.funds.reservations.lookup id = some r ∧ r.Extends r')
    (hext : Basis.Extends Reservation.Extends db.funds.reservations db'.funds.reservations) :
    db'.Booked := by
  have hback : ∀ {id w'}, db'.work.workRequests.lookup id = some w' →
      ∃ w, db.work.workRequests.lookup id = some w ∧ w.Waits w' := fun {k w'} =>
    (hrequests k).back (.refl w') fun _ hw => hw
  refine
    { unique := fun {id id' w w'} hw hw' hmember hkey => ?_
      reserved := fun {id w} hw => ?_
      reservation := fun {id w rid} hw hname => ?_
      request := fun {rid r} hr => ?_ }
  · obtain ⟨w₀, hw₀, hx⟩ := hback hw
    obtain ⟨w₀', hw₀', hx'⟩ := hback hw'
    exact hb.unique hw₀ hw₀' (hx.memberId.symm.trans (hmember.trans hx'.memberId))
      (hx.requestKey.symm.trans (hkey.trans hx'.requestKey))
  · obtain ⟨w₀, hw₀, hx⟩ := hback hw
    rw [hx.reserved_iff, hx.reservationId]
    exact hb.reserved hw₀
  · obtain ⟨w₀, hw₀, hx⟩ := hback hw
    obtain ⟨r, hr, hkey⟩ := hb.reservation hw₀ (hx.reservationId.symm.trans hname)
    obtain ⟨r', hr', hx'⟩ := hext hr
    exact ⟨r', hr', hx'.requestKey.trans hkey⟩
  · obtain ⟨r₀, hr₀, hx⟩ := hold hr
    obtain ⟨w₀, hw₀, hmember, hname⟩ := hb.request hr₀
    obtain ⟨w, hw, hx'⟩ := (hrequests r₀.requestKey).relates (.refl w₀) (fun _ hw => hw) hw₀
    rw [hx.requestKey]
    exact ⟨w, hw, hx'.memberId.trans (hmember.trans hx.memberId.symm),
      hx'.reservationId.trans hname⟩

theorem asked (hb : db.Booked) {id : Uuid} {w : WorkRequest} (hfresh : id ∉ db.work.workRequests)
    (hkey : ∀ id' w', db.work.workRequests.lookup id' = some w' →
      ¬ (w'.memberId = w.memberId ∧ w'.requestKey = w.requestKey))
    (hqueued : w.state = .queued) (hnone : w.reservationId = none) :
    (db.putRequest id w).Booked := by
  have hback : ∀ {id' w'}, (db.putRequest id w).work.workRequests.lookup id' = some w' →
      id' = id ∧ w' = w ∨ db.work.workRequests.lookup id' = some w' := fun hw' =>
    (Table.lookup_insert_cases hw').imp_right And.right
  refine
    { unique := fun {id₁ id₂ w₁ w₂} hw₁ hw₂ hmember hsame => ?_
      reserved := fun {id' w'} hw' => ?_
      reservation := fun {id' w' rid} hw' hname => ?_
      request := fun {rid r} hr => ?_ }
  · rcases hback hw₁ with ⟨rfl, rfl⟩ | hold₁ <;> rcases hback hw₂ with ⟨rfl, rfl⟩ | hold₂
    · rfl
    · exact absurd ⟨hmember.symm, hsame.symm⟩ (hkey _ _ hold₂)
    · exact absurd ⟨hmember, hsame⟩ (hkey _ _ hold₁)
    · exact hb.unique hold₁ hold₂ hmember hsame
  · rcases hback hw' with ⟨rfl, rfl⟩ | hw'
    · simp [hqueued, hnone]
    · exact hb.reserved hw'
  · rcases hback hw' with ⟨rfl, rfl⟩ | hw'
    · rw [hnone] at hname
      cases hname
    · exact hb.reservation hw' hname
  · obtain ⟨w', hw', hspec⟩ := hb.request hr
    refine ⟨w', ?_, hspec⟩
    rw [← hw']
    refine AList.lookup_insert_ne ?_
    rintro rfl
    exact hfresh (AList.lookup_isSome.mp (Option.isSome_of_eq_some hw'))

/-- A reservation is made for a request that waits. -/
theorem booked (hb : db.Booked) {id rid : Uuid} {w : WorkRequest} {r : Reservation}
    (hw : db.work.workRequests.lookup id = some w) (hqueued : w.state = .queued)
    (hfresh : rid ∉ db.funds.reservations) (hmember : r.memberId = w.memberId)
    (hkey : r.requestKey = id)
    (hrequests : db'.work.workRequests = AList.insert id
      { w with state := .reserved, reservationId := some rid } db.work.workRequests)
    (hreservations : db'.funds.reservations = AList.insert rid r db.funds.reservations) :
    db'.Booked := by
  -- A request on record now has an old version with the same member and key.
  have hback : ∀ {id' w'}, db'.work.workRequests.lookup id' = some w' →
      ∃ w₀, db.work.workRequests.lookup id' = some w₀ ∧ w₀.memberId = w'.memberId ∧
        w₀.requestKey = w'.requestKey ∧
        (id' = id ∧ w' = { w with state := .reserved, reservationId := some rid } ∨
          id' ≠ id ∧ w' = w₀) := by
    intro id' w' hw'
    rw [hrequests] at hw'
    rcases Table.lookup_insert_cases hw' with ⟨rfl, rfl⟩ | ⟨hne, hw'⟩
    · exact ⟨w, hw, rfl, rfl, .inl ⟨rfl, rfl⟩⟩
    · exact ⟨w', hw', rfl, rfl, .inr ⟨hne, rfl⟩⟩
  refine
    { unique := fun {id₁ id₂ w₁ w₂} hw₁ hw₂ hmember' hsame => ?_
      reserved := fun {id' w'} hw' => ?_
      reservation := fun {id' w' rid'} hw' hname => ?_
      request := fun {rid' r'} hr' => ?_ }
  · obtain ⟨w₁', hw₁', hm₁, hk₁, -⟩ := hback hw₁
    obtain ⟨w₂', hw₂', hm₂, hk₂, -⟩ := hback hw₂
    exact hb.unique hw₁' hw₂' (hm₁.trans (hmember'.trans hm₂.symm))
      (hk₁.trans (hsame.trans hk₂.symm))
  · obtain ⟨w₀, hw₀, -, -, ⟨rfl, rfl⟩ | ⟨-, rfl⟩⟩ := hback hw'
    · simp
    · exact hb.reserved hw₀
  · rw [Yields, hreservations]
    obtain ⟨w₀, hw₀, -, -, ⟨rfl, rfl⟩ | ⟨-, rfl⟩⟩ := hback hw'
    · obtain rfl := Option.some.inj hname
      exact ⟨r, AList.lookup_insert _, hkey⟩
    · obtain ⟨r₀, hr₀, hkey₀⟩ := hb.reservation hw₀ hname
      refine ⟨r₀, ?_, hkey₀⟩
      rw [← hr₀]
      refine AList.lookup_insert_ne ?_
      rintro rfl
      exact hfresh (AList.lookup_isSome.mp (Option.isSome_of_eq_some hr₀))
  · rw [hreservations] at hr'
    rw [hrequests]
    rcases Table.lookup_insert_cases hr' with ⟨rfl, rfl⟩ | ⟨-, hr'⟩
    · rw [hkey]
      exact ⟨_, AList.lookup_insert _, hmember.symm, rfl⟩
    · obtain ⟨w₀, hw₀, hspec⟩ := hb.request hr'
      refine ⟨w₀, ?_, hspec⟩
      rw [← hw₀]
      refine AList.lookup_insert_ne ?_
      rintro rfl
      -- The request waits, so it has no reservation yet.
      obtain rfl := Option.some.inj (hw.symm.trans hw₀)
      have hsome := (hb.reserved hw).mpr (Option.isSome_of_eq_some hspec.2)
      rw [hqueued] at hsome
      cases hsome

theorem expireQueued (hb : db.Booked) : (WorkRequests.expireQueued db).Booked :=
  hb.rests (WorkRequests.expireQueued_waits db) (fun {_ r} hr => ⟨r, hr, .refl r⟩) (.refl .refl)

/-- Whatever a transaction does to the queue, requests and reservations stay in step. -/
theorem kept (hb : db.Booked) (h : db.Books db') : db'.Booked := by
  cases h with
  | rests hrequests hold hext => exact hb.rests hrequests hold hext
  | asked hfresh hkey hqueued hnone heq =>
      rw [heq]
      exact hb.asked hfresh hkey hqueued hnone
  | booked h =>
      exact hb.expireQueued.booked h.waiting h.queued h.fresh h.memberId h.requestKey h.requests
        h.reservations

end Db.Booked

/-! ## Every transaction -/

namespace WorkRequests

variable {db db' : Db}

/-- One request waits on. -/
theorem putRequest_books {id : Uuid} {w w' : WorkRequest}
    (hw : db.work.workRequests.lookup id = some w) (hwaits : w.Waits w') :
    db.Books (db.putRequest id w') := by
  refine .rests (Evolves.insert ?_) (fun {_ r} hr => ⟨r, hr, .refl r⟩) (.refl .refl)
  rw [hw]
  exact .turned hwaits

theorem expireQueued_books (db : Db) : db.Books (expireQueued db) :=
  .rests (expireQueued_waits db) (fun {_ r} hr => ⟨r, hr, .refl r⟩) (.refl .refl)

theorem reserveNext_books (hb : db.Booked) {blockId : String}
    {choose : WorkRequest → Result (Option Selection)} {queue : List Uuid}
    {around : Surroundings} {pilot : WorkRequest → Result Unit} {fresh : FreshIds}
    {out : Option Uuid} (hchoose : Chooses db blockId choose)
    (h : reserveNext db blockId choose queue around pilot fresh = .ok (db', out)) :
    db.Books db' := by
  rcases reserveNext_spec h with ⟨rfl, -⟩ | ⟨block, hnewest, hconflict, hqueue⟩
  · exact .rests (fun _ => .same) (fun {_ r} hr => ⟨r, hr, .refl r⟩) (.refl .refl)
  rcases tryQueue_spec hqueue with ⟨rfl, -⟩ | ⟨requestId, -, reservation, -, hattempt⟩
  · exact expireQueued_books db
  obtain ⟨w, selection, hw, hqueued, hselection, htry⟩ := attempt_spec hattempt
  obtain ⟨reserved, hreserve, hhand⟩ := tryReserve_spec htry
  simp only [handOver, bind_eq_ok, pure_eq_ok] at hhand
  obtain ⟨db₁, henqueue, rfl⟩ := hhand
  have hround : selection.creationRound = block.round :=
    (hchoose w selection hselection).1 block (newestBlock_spec hnewest).1
  have hfunds := enqueue_funds henqueue
  have hrequests := (enqueue_steady henqueue).requests
  rcases reserve_spec hreserve with ⟨rfl, r, hr, -, hkey⟩ |
    ⟨r, ledger, events, rfl, rfl, -, hmember, hkey, hcreation, -, -, -, hfresh, -, -⟩
  · -- A request that waits has no reservation yet.
    have hyields := (hb.expireQueued.reserved_iff hw).mpr ⟨reservation, r, hr, hkey⟩
    rw [hqueued] at hyields
    cases hyields
  · refine @Db.Books.booked _ _ requestId fresh.reservation w r ?_
    exact
      { waiting := hw
        queued := hqueued
        fresh := hfresh
        memberId := hmember
        requestKey := hkey
        current := ⟨blockId, block, hnewest, hconflict, by omega⟩
        requests := congrArg (AList.insert requestId _) hrequests
        reservations := congrArg Funds.reservations hfunds }

end WorkRequests

theorem Submissions.recordResponse_requests {db db' : Db} {identity responseId : Uuid}
    {response : Wire} {limits : Wire → Bool} {out : Bool}
    (h : recordResponse db identity response responseId limits = .ok (db', out)) :
    db'.work.workRequests = db.work.workRequests := by
  obtain ⟨row, intent, stored, db₁, -, -, -, hreceipt, hput⟩ := recordResponse_spec h
  have hsaved : db₁.work.workRequests = db.work.workRequests := by
    rcases hreceipt with ⟨benchmarkId, -, hreceipt⟩ | ⟨-, rfl⟩
    · exact (receipt_frame hreceipt).1.requests
    · rfl
  rcases hput with ⟨-, rfl⟩ | ⟨-, -, rfl⟩
  · exact hsaved
  · exact hsaved

namespace Sys

variable {s s' : Sys} {a : Action}

/-- Only transactions about work requests write them. -/
theorem Step.requests (hs : s.Lawful) (h : Step s a s')
    (ha : ∀ w, a = .work w → w.attends = false ∨ ∃ i, w = .recordResponse i) :
    s'.db.work.workRequests = s.db.work.workRequests := by
  cases h with
  | funds h => exact (h.moves hs.funds hs.held hs.created).steady.requests
  | report h =>
      obtain ⟨_, rfl⟩ := h.frame
      rfl
  | observe h =>
      obtain ⟨_, rfl⟩ := h.frame
      rfl
  | work h =>
      rcases ha _ rfl with hnot | ⟨i, rfl⟩
      · exact (h.steady hs.funds hnot).requests
      · cases h with
        | recordResponse h => exact Submissions.recordResponse_requests h
  | hold h => exact (HoldStep.moves h).steady.requests
  | tick => rfl

/-- Only the queue makes reservations. -/
theorem Step.reservation_old (hs : s.Lawful) (ha : Whole s a)
    (hne : ∀ id, a ≠ .work (.reserveNext id)) (h : Step s a s') {id : Uuid} {r' : Reservation}
    (hr' : s'.db.funds.reservations.lookup id = some r') :
    ∃ r, s.db.funds.reservations.lookup id = some r ∧ r.Extends r' := by
  rcases Funds.Path.reservation_back (h.path hs) hs.funds hr' with hold | ⟨m, n, hdoes⟩
  · exact hold
  cases a with
  | funds a =>
      cases a with
      | reserve => exact absurd (ha _ rfl) (by simp [FundsPart])
      | _ => simp [Action.does, FundsAction.does, Change.Quiet] at hdoes
  | work a =>
      cases a with
      | reserveNext id' => exact absurd rfl (hne id')
      | _ => simp [Action.does, WorkAction.does, Change.Quiet] at hdoes
  | _ => simp [Action.does, Change.Quiet] at hdoes

theorem Step.books (hs : s.Lawful) (hb : s.db.Booked) (ha : Whole s a) (h : Step s a s') :
    s.db.Books s'.db := by
  have hext : Basis.Extends Reservation.Extends s.db.funds.reservations
      s'.db.funds.reservations := (h.extends hs).reservation
  by_cases hattends : ∀ w, a = .work w → w.attends = false ∨ ∃ i, w = .recordResponse i
  · refine .rests (fun id => ?_) (h.reservation_old hs ha ?_) hext
    · rw [h.requests hs hattends]
      exact .same
    · rintro id rfl
      rcases hattends _ rfl with hnot | ⟨i, heq⟩
      · cases hnot
      · cases heq
  cases h with
  | work h =>
      cases h with
      | create h =>
          obtain ⟨given, -, ⟨row, -, -, -, rfl⟩ | ⟨hkey, hfresh, -, rfl⟩⟩ :=
            WorkRequests.create_spec h
          · exact .rests (fun _ => .same) (fun {_ r} hr => ⟨r, hr, .refl r⟩) (.refl .refl)
          · exact .asked hfresh hkey rfl rfl rfl
      | refresh h =>
          obtain ⟨w, hw, -, -, -, -, rfl⟩ := WorkRequests.refresh_spec h
          exact WorkRequests.putRequest_books hw ⟨rfl, rfl, .inl rfl⟩
      | get h =>
          rcases (WorkRequests.get_spec h).1 with rfl | ⟨w, hw, hqueued, rfl⟩
          · exact .rests (fun _ => .same) (fun {_ r} hr => ⟨r, hr, .refl r⟩) (.refl .refl)
          · exact WorkRequests.putRequest_books hw ⟨rfl, rfl, .inr ⟨hqueued, rfl⟩⟩
      | hasQueued => exact WorkRequests.expireQueued_books _
      | reserveNext hchoose h => exact WorkRequests.reserveNext_books hb hchoose h
      | recordResponse =>
          refine absurd (fun w heq => ?_) hattends
          obtain rfl := Action.work.inj heq
          exact .inr ⟨_, rfl⟩
      | _ =>
          refine absurd (fun w heq => ?_) hattends
          obtain rfl := Action.work.inj heq
          exact .inl rfl
  | _ => exact absurd (fun w heq => by cases heq) hattends

/-! ## Every run -/

theorem Initial.booked (h : s.Initial) : s.db.Booked where
  unique hw := by
    rw [h.requests] at hw
    cases hw
  reserved hw := by
    rw [h.requests] at hw
    cases hw
  reservation hw := by
    rw [h.requests] at hw
    cases hw
  request hr := by
    rw [h.funds] at hr
    cases hr

theorem Reachable.booked (h : Reachable Whole s) : s.db.Booked :=
  Reachable.invariant (I := fun s => s.db.Booked) h (fun _ hs => hs.booked)
    fun _ _ _ ha hr hb hstep => hb.kept (hstep.books hr.lawful hb ha)

/-- A transaction that makes a reservation books a request. -/
theorem Step.booking (hs : s.Lawful) (hb : s.db.Booked) (ha : Whole s a) (h : Step s a s')
    {rid : Uuid} {r : Reservation} (hfresh : rid ∉ s.db.funds.reservations)
    (hr : s'.db.funds.reservations.lookup rid = some r) :
    ∃ w, s.db.Booking s'.db r.requestKey rid w r := by
  have hnot {r₀ : Reservation} : s.db.funds.reservations.lookup rid ≠ some r₀ := fun hr₀ =>
    hfresh (AList.lookup_isSome.mp (Option.isSome_of_eq_some hr₀))
  cases h.books hs hb ha with
  | rests _ hold _ =>
      obtain ⟨r₀, hr₀, -⟩ := hold hr
      exact absurd hr₀ hnot
  | asked _ _ _ _ heq =>
      rw [heq] at hr
      exact absurd hr hnot
  | booked hbooking =>
      have hr' := hr
      rw [hbooking.reservations] at hr'
      rcases Table.lookup_insert_cases hr' with ⟨rfl, rfl⟩ | ⟨-, hr₀⟩
      · rw [hbooking.requestKey]
        exact ⟨_, hbooking⟩
      · exact absurd hr₀ hnot

end Sys

/-- A key that a member has used stands for one offer: with another, `create` fails. -/
theorem Db.Booked.create_eq {db : Db} (hb : db.Booked) {id identity : Uuid} {w : WorkRequest}
    {resource computeType : String} {capacity : Json} {ttl : ℤ} {out : Db × Uuid}
    (hw : db.work.workRequests.lookup id = some w)
    (h : WorkRequests.create db w.memberId w.requestKey resource computeType capacity ttl identity
      = .ok out) :
    WorkRequests.offer resource computeType capacity = .ok w.offer ∧ out = (db, id) := by
  obtain ⟨db', id'⟩ := out
  obtain ⟨given, hgiven, ⟨row, hrow, ⟨hmember, hkey⟩, rfl, rfl⟩ | ⟨hkey, -⟩⟩ :=
    WorkRequests.create_spec h
  · obtain rfl := hb.unique hrow hw hmember hkey
    obtain rfl := Option.some.inj (hrow.symm.trans hw)
    exact ⟨hgiven, rfl⟩
  · exact absurd ⟨rfl, rfl⟩ (hkey id w hw)

/-- In every state that whole transactions reach: a request is reserved exactly when it has a
reservation, which is its only one and stays so, and whose precommit is the only one and is
what was reserved.  A reservation is made from a good offer, in the round of the newest block,
on which no evidence conflicts.  A key that is used again with another offer changes nothing. -/
theorem work_queue_safety {s : Sys} (h : Sys.Reachable Sys.Whole s) :
    (∀ id w, s.db.work.workRequests.lookup id = some w →
      (w.state = .reserved ↔ ∃ rid, s.db.Yields id rid) ∧
      (∀ rid rid', s.db.Yields id rid → s.db.Yields id rid' → rid = rid') ∧
      (∀ rid s', s.db.Yields id rid → Leads Sys.Step Sys.Whole s s' → s'.db.Yields id rid) ∧
      ∀ rid rid' intentId intentId' i i', s.db.Yields id rid → s.db.Yields id rid' →
        s.db.work.protocolOutbox.lookup intentId = some i →
        s.db.work.protocolOutbox.lookup intentId' = some i' → i.PrecommitOf rid →
        i'.PrecommitOf rid' → intentId = intentId') ∧
    (∀ rid r, s.db.funds.reservations.lookup rid = some r →
      (∃ w, s.db.work.workRequests.lookup r.requestKey = some w ∧ w.memberId = r.memberId ∧
        w.reservationId = some rid) ∧
      ∃ intentId i, s.db.work.protocolOutbox.lookup intentId = some i ∧ i.PrecommitOf rid ∧
        i.payload = r.payload ∧ r.payloadText = some i.payloadText ∧
        ∀ intentId' i', s.db.work.protocolOutbox.lookup intentId' = some i' →
          i'.PrecommitOf rid → intentId' = intentId) ∧
    (∀ a s' rid r, Sys.Whole s a → Sys.Step s a s' → rid ∉ s.db.funds.reservations →
      s'.db.funds.reservations.lookup rid = some r → ∃ blockId block w,
        WorkRequests.newestBlock s.db = some (blockId, block) ∧
        Reports.hasUnresolvedConflict s.db block.height = false ∧
        r.creationRound = block.round ∧ s.db.work.workRequests.lookup r.requestKey = some w ∧
        w.state = .queued ∧ s.db.clock < w.expiresAt) ∧
    ∀ id w resource computeType capacity ttl identity out,
      s.db.work.workRequests.lookup id = some w →
      WorkRequests.create s.db w.memberId w.requestKey resource computeType capacity ttl identity
        = .ok out →
      WorkRequests.offer resource computeType capacity = .ok w.offer ∧ out = (s.db, id) := by
  have hb := h.booked
  have hc := h.coupled
  refine ⟨fun id w hw => ⟨hb.reserved_iff hw, fun rid rid' => hb.yields_unique,
    fun rid s' hyields hrun => ?_, fun rid rid' intentId intentId' i i' hyields hyields' hi hi' hof
      hof' => ?_⟩, fun rid r hr => ⟨hb.request hr, ?_⟩,
    fun a s' rid r ha hstep hfresh hr => ?_,
    fun id w resource computeType capacity ttl identity out => hb.create_eq⟩
  · obtain ⟨r, hr, hkey⟩ := hyields
    obtain ⟨r', hr', hx⟩ := (Sys.run_extends h.lawful hrun).reservation hr
    exact ⟨r', hr', hx.requestKey.trans hkey⟩
  · obtain rfl := hb.yields_unique hyields hyields'
    exact hc.unique hi hi' (hof.reservationId.trans hof'.reservationId.symm)
      (hof.kind.trans hof'.kind.symm)
  · obtain ⟨intentId, i, hi, hof⟩ := hc.intent hr
    obtain ⟨rfl, hkind⟩ := hof
    obtain ⟨hproposes, -⟩ := hc.couples hi hkind hr
    refine ⟨intentId, i, hi, ⟨rfl, hkind⟩, hproposes.payload, hproposes.text, ?_⟩
    exact fun intentId' i' hi' hof' => hc.unique hi' hi hof'.reservationId
      (hof'.kind.trans hkind.symm)
  · obtain ⟨w, hbooking⟩ := hstep.booking h.lawful hb ha hfresh hr
    obtain ⟨blockId, block, hnewest, hconflict, hround⟩ := hbooking.current
    obtain ⟨hw, hgood⟩ := WorkRequests.expireQueued_queued hbooking.waiting hbooking.queued
    exact ⟨blockId, block, w, hnewest, hconflict, hround, hw, hbooking.queued, hgood⟩

/-- On the day of responses, the request is reserved. -/
theorem work_queue_safety_sent : Sys.Reachable Sys.Whole ResponseDay.sent ∧
    ∃ rid, ResponseDay.sent.db.Yields "request" rid := by
  obtain ⟨s, hs, hbegin⟩ := @ResponseDay.sending Sys.Whole fun _ _ ha _ => ha.1
  have hsent := hs.step Sys.serves_work.1 hbegin
  have hstate : (ResponseDay.sent.db.work.workRequests.lookup "request").map (·.state)
      = some .reserved := by decide +kernel
  obtain ⟨w, hw, hreserved⟩ := Option.map_eq_some_iff.mp hstate
  exact ⟨hsent, ((work_queue_safety hsent).1 "request" w hw).1.mp hreserved⟩

end TigPool
