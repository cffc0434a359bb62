/-
# `TigPool.Coupling` — precommits and their reservations move together

The outbox says whether a precommit may have been sent, the reservation what it holds, and
the receipt what it has become.  `Db.Couples` is the table of the states that fit together,
and `Db.Dispatches` lists what a transaction can do to them, each with what it found.  That
the tables stay coupled is a matter of the list alone.
-/
import TigPool.Dispatch

namespace TigPool

open Basis

/-! ## Tables that fit together -/

/-- The intent is the precommit of the reservation. -/
structure ProtocolIntent.PrecommitOf (id : Uuid) (i : ProtocolIntent) : Prop where
  reservationId : i.reservationId = id
  kind : i.kind = .precommit

/-- What `choose` proposes, for some choice. -/
def Proposed (payload : Json) : Prop :=
  ∃ playerId blockId challengeId algorithmId computeType tracks, payload
    = WorkRequests.proposal playerId blockId challengeId algorithmId computeType tracks

/-- The intent carries what was reserved, which is a proposal. -/
structure Reservation.Proposes (r : Reservation) (i : ProtocolIntent) : Prop where
  payload : i.payload = r.payload
  text : r.payloadText = some i.payloadText
  proposed : Proposed i.payloadText

namespace Db

/-- The mark that a precommit may have been sent. -/
def sentMark (db : Db) (id : Uuid) : Option ReservationEvent :=
  db.work.reservationEvents.lookup (id, .potentiallySent)

/-- The states of a precommit's intent and of its reservation fit together. -/
def Couples (db : Db) (r : Reservation) (i : ProtocolIntent) : Prop :=
  let receipt := db.work.precommitReceipts.lookup i.reservationId
  match i.state with
  | .ready => r.state = .reserved ∧ receipt = none ∧ i.sentAt = none ∧
      db.sentMark i.reservationId = none
  | .uncertain => r.state = .uncertain ∧ receipt = none ∧
      i.matchKey = some (Submissions.matchKey i.payloadText)
  | .accepted => ∃ x, receipt = some x ∧
      (r.state = .uncertain ∨ r.benchmarkId = some x.benchmarkId)
  | .rejected => r.state = .rejected ∧ receipt = none
  | .cancelled => r.state = .cancelled ∧ r.benchmarkId = none ∧ receipt = none ∧
      i.sentAt = none ∧ db.sentMark i.reservationId = none

/-- Every reservation has its precommit, and the states of the two fit together. -/
structure Coupled (db : Db) : Prop where
  intent : ∀ {id r}, db.funds.reservations.lookup id = some r →
    ∃ intentId i, db.work.protocolOutbox.lookup intentId = some i ∧ i.PrecommitOf id
  reservation : ∀ {intentId i}, db.work.protocolOutbox.lookup intentId = some i →
    ∃ r, db.funds.reservations.lookup i.reservationId = some r
  couples : ∀ {intentId i r}, db.work.protocolOutbox.lookup intentId = some i →
    i.kind = .precommit → db.funds.reservations.lookup i.reservationId = some r →
    r.Proposes i ∧ db.Couples r i
  /-- Of each kind a reservation has one intent. -/
  unique : ∀ {intentId intentId' i i'}, db.work.protocolOutbox.lookup intentId = some i →
    db.work.protocolOutbox.lookup intentId' = some i' → i.reservationId = i'.reservationId →
    i.kind = i'.kind → intentId = intentId'
  /-- Precommits that could be taken for each other are not under way together. -/
  fence : ∀ {intentId intentId' i i'}, db.work.protocolOutbox.lookup intentId = some i →
    db.work.protocolOutbox.lookup intentId' = some i' → i.kind = .precommit →
    i'.kind = .precommit → i.state = .uncertain → i'.state = .uncertain →
    i.matchKey = i'.matchKey → intentId = intentId'
  receipt : ∀ {id x}, db.work.precommitReceipts.lookup id = some x →
    id ∈ db.funds.reservations
  /-- A benchmark has one receipt. -/
  owner : ∀ {id id' x x'}, db.work.precommitReceipts.lookup id = some x →
    db.work.precommitReceipts.lookup id' = some x' → x.benchmarkId = x'.benchmarkId → id = id'
  mark : ∀ {id}, (db.sentMark id).isSome → id ∈ db.funds.reservations

/-- What is queued for an accepted benchmark: its results or its proofs, each once. -/
structure Uploads (db : Db) (i : ProtocolIntent) : Prop where
  kind : i.kind ≠ .precommit
  state : i.state = .ready
  reservation : ∃ r, db.funds.reservations.lookup i.reservationId = some r ∧
    r.state = .accepted ∧ r.handedOverAt.isSome
  fresh : ∀ {intentId i'}, db.work.protocolOutbox.lookup intentId = some i' →
    ¬ (i'.reservationId = i.reservationId ∧ i'.kind = i.kind)

/-- Precommits rest: other intents turn, and accepted work goes on. -/
structure Rests (db db' : Db) : Prop where
  outbox : ∀ intentId, Evolves (fun _ => False) (fun i i' => i.kind ≠ .precommit ∧ i.Turns i')
    (db.work.protocolOutbox.lookup intentId) (db'.work.protocolOutbox.lookup intentId)
  receipts : db'.work.precommitReceipts = db.work.precommitReceipts
  reservations : ∀ id, Evolves (fun _ => False) Reservation.GoesOn
    (db.funds.reservations.lookup id) (db'.funds.reservations.lookup id)
  marks : ∀ id, (∃ r, db.funds.reservations.lookup id = some r ∧ r.benchmarkId.isSome) ∨
    db'.sentMark id = db.sentMark id

/-- What a transaction does to submissions. -/
inductive Dispatches (db db' : Db) : Prop
  | rests : db.Rests db' → Dispatches db db'
  | uploaded {intentId : Uuid} {i : ProtocolIntent} : db.Uploads i →
      intentId ∉ db.work.protocolOutbox →
      db'.work.protocolOutbox = AList.insert intentId i db.work.protocolOutbox →
      db'.work.precommitReceipts = db.work.precommitReceipts →
      db'.funds.reservations = db.funds.reservations →
      (∀ id, db'.sentMark id = db.sentMark id) → Dispatches db db'
  | reserved {id intentId : Uuid} {r : Reservation} {i : ProtocolIntent} :
      id ∉ db.funds.reservations → intentId ∉ db.work.protocolOutbox → r.state = .reserved →
      r.Proposes i → i.PrecommitOf id → i.state = .ready → i.sentAt = none →
      db'.work.protocolOutbox = AList.insert intentId i db.work.protocolOutbox →
      db'.work.precommitReceipts = db.work.precommitReceipts →
      db'.funds.reservations = AList.insert id r db.funds.reservations →
      (∀ id, db'.sentMark id = db.sentMark id) → Dispatches db db'
  | authorised {intentId : Uuid} {i : ProtocolIntent} {r : Reservation} {time : Time}
      {preflight : Preflight} : db.work.protocolOutbox.lookup intentId = some i →
      i.kind = .precommit → i.state = .ready →
      db.funds.reservations.lookup i.reservationId = some r → r.state = .reserved →
      (∀ intentId' i', db.work.protocolOutbox.lookup intentId' = some i' →
        i'.matchKey = some (Submissions.matchKey i.payloadText) → i'.state ≠ .uncertain) →
      db'.work.protocolOutbox = AList.insert intentId
        { i with state := .uncertain, sentAt := some time, preflight := some preflight,
                 matchKey := some (Submissions.matchKey i.payloadText) }
        db.work.protocolOutbox →
      db'.work.precommitReceipts = db.work.precommitReceipts →
      db'.funds.reservations
        = AList.insert i.reservationId { r with state := .uncertain } db.funds.reservations →
      (∀ id, id ≠ i.reservationId → db'.sentMark id = db.sentMark id) → Dispatches db db'
  | withdrawn {intentId : Uuid} {i : ProtocolIntent} {r : Reservation} {evidence : Json}
      {actual : ℕ} : db.work.protocolOutbox.lookup intentId = some i →
      i.kind = .precommit → i.state = .ready →
      db.funds.reservations.lookup i.reservationId = some r → r.state = .reserved →
      db'.work.protocolOutbox = AList.insert intentId
        { i with state := .cancelled, evidence := some evidence } db.work.protocolOutbox →
      db'.work.precommitReceipts = db.work.precommitReceipts →
      db'.funds.reservations = AList.insert i.reservationId
        { r with feeActual := some actual, state := .cancelled, slotHeld := false,
                 collateralOutcome := some .returned } db.funds.reservations →
      (∀ id, db'.sentMark id = db.sentMark id) → Dispatches db db'
  | answered {intentId : Uuid} {i : ProtocolIntent} {receipt : PrecommitReceipt}
      {evidence : Json} : db.work.protocolOutbox.lookup intentId = some i →
      i.kind = .precommit → i.state = .uncertain →
      (∀ id x, db.work.precommitReceipts.lookup id = some x →
        x.benchmarkId ≠ receipt.benchmarkId) →
      db'.work.protocolOutbox = AList.insert intentId
        { i with state := .accepted, evidence := some evidence } db.work.protocolOutbox →
      db'.work.precommitReceipts
        = AList.insert i.reservationId receipt db.work.precommitReceipts →
      db'.funds.reservations = db.funds.reservations →
      (∀ id, db'.sentMark id = db.sentMark id) → Dispatches db db'
  | refused {intentId : Uuid} {i : ProtocolIntent} {r : Reservation} {evidence : Json}
      {actual : ℕ} : db.work.protocolOutbox.lookup intentId = some i →
      i.kind = .precommit → i.state = .uncertain →
      db.funds.reservations.lookup i.reservationId = some r → r.state = .uncertain →
      db'.work.protocolOutbox = AList.insert intentId
        { i with state := .rejected, evidence := some evidence } db.work.protocolOutbox →
      db'.work.precommitReceipts = db.work.precommitReceipts →
      db'.funds.reservations = AList.insert i.reservationId
        { r with feeActual := some actual, state := .rejected, slotHeld := false,
                 collateralOutcome := some .returned } db.funds.reservations →
      (∀ id, db'.sentMark id = db.sentMark id) → Dispatches db db'
  | published {id : Uuid} {r : Reservation} {receipt : PrecommitReceipt} {assignment : Json}
      {actual : ℕ} : db.funds.reservations.lookup id = some r → r.state = .uncertain →
      db.work.precommitReceipts.lookup id = some receipt →
      db'.work.protocolOutbox = db.work.protocolOutbox →
      db'.work.precommitReceipts = db.work.precommitReceipts →
      db'.funds.reservations = AList.insert id
        { r with feeActual := some actual, state := .accepted,
                 benchmarkId := some receipt.benchmarkId, assignment := some assignment,
                 assignmentDigest := some assignment } db.funds.reservations →
      (∀ id, db'.sentMark id = db.sentMark id) → Dispatches db db'

namespace Rests

variable {db db' : Db} {L : Change → Prop}

/-- Accepted work goes on; the intents are told apart. -/
theorem of_path (hf : db.funds.Lawful) (hpath : Funds.Path L db.funds db'.funds)
    (hsends : db.work.Sends L db'.work) (hL : ∀ c, L c → c.Settled db.funds)
    (houtbox : ∀ intentId, Evolves (fun _ => False) (fun i i' => i.kind ≠ .precommit ∧ i.Turns i')
      (db.work.protocolOutbox.lookup intentId) (db'.work.protocolOutbox.lookup intentId))
    (hreceipts : db'.work.precommitReceipts = db.work.precommitReceipts) : db.Rests db' where
  outbox := houtbox
  receipts := hreceipts
  reservations id := hpath.goesOn hf hL id
  marks id := (hsends id).imp_left (hL _)

theorem of_moves (hf : db.funds.Lawful) (h : db.Moves L db')
    (hL : ∀ c, L c → c.Settled db.funds) : db.Rests db' :=
  of_path hf h.path h.sends hL (fun _ => by rw [h.outbox]; exact .same) h.receipts

/-- Nothing is written that submissions consist of. -/
theorem of_eq (hfunds : db'.funds.reservations = db.funds.reservations)
    (houtbox : db'.work.protocolOutbox = db.work.protocolOutbox)
    (hreceipts : db'.work.precommitReceipts = db.work.precommitReceipts)
    (hmarks : ∀ id, db'.sentMark id = db.sentMark id) : db.Rests db' where
  outbox _ := by rw [houtbox]; exact .same
  receipts := hreceipts
  reservations _ := by rw [hfunds]; exact .same
  marks id := .inr (hmarks id)

theorem refl (db : Db) : db.Rests db :=
  of_eq rfl rfl rfl fun _ => rfl

/-- One intent of results or proofs turns. -/
theorem of_put {intentId : Uuid} {i i' : ProtocolIntent}
    (hi : db.work.protocolOutbox.lookup intentId = some i) (hkind : i.kind ≠ .precommit)
    (ht : i.Turns i') : db.Rests (db.putIntent intentId i') where
  outbox := Evolves.insert (by rw [hi]; exact .turned ⟨hkind, ht⟩)
  receipts := rfl
  reservations _ := .same
  marks _ := .inr rfl

end Rests

end Db

/-! ## The tables stay coupled -/

namespace Db

variable {db db' : Db}

/-- What the states of the two fit by is on record as before. -/
theorem Couples.congr {r : Reservation} {i : ProtocolIntent} (h : db.Couples r i)
    (hreceipt : db'.work.precommitReceipts.lookup i.reservationId
      = db.work.precommitReceipts.lookup i.reservationId)
    (hmark : db'.sentMark i.reservationId = db.sentMark i.reservationId) : db'.Couples r i := by
  simpa only [Couples, hreceipt, hmark] using h

/-- The precommit of what TIG has accepted is accepted. -/
theorem Couples.named {r : Reservation} {i : ProtocolIntent} (h : db.Couples r i)
    (hshape : r.Shape) (hsome : r.benchmarkId.isSome) : i.state = .accepted ∧
      ∃ x, db.work.precommitReceipts.lookup i.reservationId = some x ∧
        r.benchmarkId = some x.benchmarkId := by
  have hnot : ∀ {state}, r.state = state →
      (state = .reserved ∨ state = .uncertain ∨ state = .rejected) → False := by
    rintro state rfl hs
    rw [hshape.unnamed hs] at hsome
    cases hsome
  unfold Couples at h
  split at h
  next => exact (hnot h.1 (by simp)).elim
  next => exact (hnot h.1 (by simp)).elim
  next hstate =>
    obtain ⟨x, hx, hs | hb⟩ := h
    · exact (hnot hs (by simp)).elim
    · exact ⟨hstate, x, hx, hb⟩
  next => exact (hnot h.1 (by simp)).elim
  next =>
    rw [h.2.1] at hsome
    cases hsome

/-- Only what TIG has accepted goes on, and is marked again. -/
theorem Couples.rested {r r' : Reservation} {i : ProtocolIntent} (h : db.Couples r i)
    (hshape : r.Shape) (hreceipts : db'.work.precommitReceipts = db.work.precommitReceipts)
    (hmark : r.benchmarkId.isSome ∨ db'.sentMark i.reservationId = db.sentMark i.reservationId)
    (hon : r' = r ∨ r.GoesOn r') : db'.Couples r' i := by
  by_cases hsome : r.benchmarkId.isSome
  · obtain ⟨hstate, x, hx, hb⟩ := h.named hshape hsome
    have hkeeps : r'.benchmarkId = r.benchmarkId := by
      rcases hon with rfl | hon
      · rfl
      · exact hon.benchmarkId
    rw [Couples, hstate]
    exact ⟨x, by rw [hreceipts, hx], .inr (hkeeps.trans hb)⟩
  · obtain rfl := hon.resolve_right fun hon => hsome hon.accepted
    exact h.congr (by rw [hreceipts]) (hmark.resolve_left hsome)

namespace Coupled

theorem reserved_of_ready (hc : db.Coupled) {intentId : Uuid} {i : ProtocolIntent}
    {r : Reservation} (hi : db.work.protocolOutbox.lookup intentId = some i)
    (hkind : i.kind = .precommit) (hr : db.funds.reservations.lookup i.reservationId = some r)
    (hstate : i.state = .ready) : r.state = .reserved ∧
      db.work.precommitReceipts.lookup i.reservationId = none ∧ i.sentAt = none ∧
      db.sentMark i.reservationId = none := by
  have h := (hc.couples hi hkind hr).2
  rwa [Couples, hstate] at h

theorem uncertain_of_uncertain (hc : db.Coupled) {intentId : Uuid} {i : ProtocolIntent}
    {r : Reservation} (hi : db.work.protocolOutbox.lookup intentId = some i)
    (hkind : i.kind = .precommit) (hr : db.funds.reservations.lookup i.reservationId = some r)
    (hstate : i.state = .uncertain) : r.state = .uncertain ∧
      db.work.precommitReceipts.lookup i.reservationId = none ∧
      i.matchKey = some (Submissions.matchKey i.payloadText) := by
  have h := (hc.couples hi hkind hr).2
  rwa [Couples, hstate] at h

/-- One precommit moves, with its reservation. -/
theorem turned (hc : db.Coupled) {intentId : Uuid} {i i' : ProtocolIntent} {r r' : Reservation}
    (hi : db.work.protocolOutbox.lookup intentId = some i) (hkind : i.kind = .precommit)
    (hr : db.funds.reservations.lookup i.reservationId = some r)
    (houtbox : ∀ k, db'.work.protocolOutbox.lookup k
      = if k = intentId then some i' else db.work.protocolOutbox.lookup k)
    (hreservations : ∀ k, db'.funds.reservations.lookup k
      = if k = i.reservationId then some r' else db.funds.reservations.lookup k)
    (hof : i'.PrecommitOf i.reservationId) (hproposes : r.Proposes i → r'.Proposes i')
    (hreceipts : ∀ k, k ≠ i.reservationId → db'.work.precommitReceipts.lookup k
      = db.work.precommitReceipts.lookup k)
    (howner : ∀ {id id' x x'}, db'.work.precommitReceipts.lookup id = some x →
      db'.work.precommitReceipts.lookup id' = some x' → x.benchmarkId = x'.benchmarkId → id = id')
    (hmarks : ∀ k, k ≠ i.reservationId → db'.sentMark k = db.sentMark k)
    (hcouples : db'.Couples r' i')
    (hfence : i'.state = .uncertain → ∀ k j, db.work.protocolOutbox.lookup k = some j →
      j.kind = .precommit → j.state = .uncertain → j.matchKey = i'.matchKey → k = intentId) :
    db'.Coupled := by
  obtain ⟨hreservationId, hkind'⟩ := hof
  have hmem : ∀ {k}, k ∈ db.funds.reservations → k ∈ db'.funds.reservations := by
    intro k hk
    rw [← AList.lookup_isSome, hreservations]
    split
    next => rfl
    next => exact AList.lookup_isSome.mpr hk
  have hself : i.reservationId ∈ db.funds.reservations :=
    AList.lookup_isSome.mp (Option.isSome_of_eq_some hr)
  -- An intent on record now has an old version of the same kind, for the same reservation.
  have hback : ∀ {k j}, db'.work.protocolOutbox.lookup k = some j →
      ∃ j₀, db.work.protocolOutbox.lookup k = some j₀ ∧ j₀.reservationId = j.reservationId ∧
        j₀.kind = j.kind ∧ (k = intentId ∧ j = i' ∨ k ≠ intentId ∧ j = j₀) := by
    intro k j hj
    rw [houtbox] at hj
    split at hj
    next heq =>
      obtain rfl := Option.some.inj hj
      exact ⟨i, by rw [heq, hi], hreservationId.symm, hkind.trans hkind'.symm, .inl ⟨heq, rfl⟩⟩
    next hne => exact ⟨j, hj, rfl, rfl, .inr ⟨hne, rfl⟩⟩
  -- Only the intent itself is a precommit of its reservation.
  have hother : ∀ {k j}, db.work.protocolOutbox.lookup k = some j → j.kind = .precommit →
      k ≠ intentId → j.reservationId ≠ i.reservationId := fun hj hjkind hne hid =>
    hne (hc.unique hj hi hid (hjkind.trans hkind.symm))
  refine
    { intent := fun {id r₁} hr₁ => ?_
      reservation := fun {k j} hj => ?_
      couples := fun {k j r₁} hj hjkind hr₁ => ?_
      unique := fun {k k' j j'} hj hj' hid hjkind => ?_
      fence := fun {k k' j j'} hj hj' hjkind hjkind' hjun hjun' hkey => ?_
      receipt := fun {id x} hx => ?_
      owner := howner
      mark := fun {id} hmark => ?_ }
  · have hold : ∃ r₀, db.funds.reservations.lookup id = some r₀ := by
      rw [hreservations] at hr₁
      split at hr₁
      next heq => exact ⟨r, by rw [heq, hr]⟩
      next => exact ⟨r₁, hr₁⟩
    obtain ⟨r₀, hr₀⟩ := hold
    obtain ⟨k, j, hj, hjof⟩ := hc.intent hr₀
    by_cases hk : k = intentId
    · subst hk
      obtain rfl := Option.some.inj (hj.symm.trans hi)
      exact ⟨k, i', by rw [houtbox, if_pos rfl], hreservationId.trans hjof.reservationId, hkind'⟩
    · exact ⟨k, j, by rw [houtbox, if_neg hk, hj], hjof⟩
  · obtain ⟨j₀, hj₀, hid, -⟩ := hback hj
    obtain ⟨r₀, hr₀⟩ := hc.reservation hj₀
    rw [← hid]
    exact Option.isSome_iff_exists.mp (AList.lookup_isSome.mpr
      (hmem (AList.lookup_isSome.mp (Option.isSome_of_eq_some hr₀))))
  · obtain ⟨j₀, hj₀, hid, hjkind₀, ⟨rfl, rfl⟩ | ⟨hne, rfl⟩⟩ := hback hj
    · obtain rfl := Option.some.inj (hj₀.symm.trans hi)
      rw [hreservations, if_pos hreservationId] at hr₁
      obtain rfl := Option.some.inj hr₁
      exact ⟨hproposes (hc.couples hi hkind hr).1, hcouples⟩
    · have hneid := hother hj₀ hjkind hne
      rw [hreservations, if_neg hneid] at hr₁
      obtain ⟨hproposed, hold⟩ := hc.couples hj₀ hjkind hr₁
      exact ⟨hproposed, hold.congr (hreceipts _ hneid) (hmarks _ hneid)⟩
  · obtain ⟨j₀, hj₀, hid₀, hkind₀, -⟩ := hback hj
    obtain ⟨j₀', hj₀', hid₀', hkind₀', -⟩ := hback hj'
    exact hc.unique hj₀ hj₀' (hid₀.trans (hid.trans hid₀'.symm))
      (hkind₀.trans (hjkind.trans hkind₀'.symm))
  · obtain ⟨j₀, hj₀, -, -, ⟨rfl, rfl⟩ | ⟨hne, rfl⟩⟩ := hback hj
    · obtain ⟨j₀', hj₀', -, -, ⟨rfl, rfl⟩ | ⟨hne', rfl⟩⟩ := hback hj'
      · rfl
      · exact (hfence hjun _ _ hj₀' hjkind' hjun' hkey.symm).symm
    · obtain ⟨j₀', hj₀', -, -, ⟨rfl, rfl⟩ | ⟨hne', rfl⟩⟩ := hback hj'
      · exact hfence hjun' _ _ hj₀ hjkind hjun hkey
      · exact hc.fence hj₀ hj₀' hjkind hjkind' hjun hjun' hkey
  · by_cases hid : id = i.reservationId
    · rw [hid]
      exact hmem hself
    · rw [hreceipts _ hid] at hx
      exact hmem (hc.receipt hx)
  · by_cases hid : id = i.reservationId
    · rw [hid]
      exact hmem hself
    · rw [hmarks _ hid] at hmark
      exact hmem (hc.mark hmark)

theorem rested (hc : db.Coupled) (hshape : ∀ {id r}, db.funds.reservations.lookup id = some r →
    r.Shape) (h : db.Rests db') : db'.Coupled := by
  -- Intents and reservations on record now have old versions, and the other way round.
  have hback : ∀ {k j}, db'.work.protocolOutbox.lookup k = some j →
      ∃ j₀, db.work.protocolOutbox.lookup k = some j₀ ∧ j₀.reservationId = j.reservationId ∧
        j₀.kind = j.kind ∧ (j.kind = .precommit → j = j₀) := by
    intro k j hj
    have hev := h.outbox k
    rw [hj] at hev
    generalize db.work.protocolOutbox.lookup k = o at hev ⊢
    cases hev with
    | same => exact ⟨j, rfl, rfl, rfl, fun _ => rfl⟩
    | made hfalse => exact hfalse.elim
    | turned ht =>
        obtain ⟨hkind, hturn⟩ := ht
        cases hturn <;> exact ⟨_, rfl, rfl, rfl, fun heq => absurd heq hkind⟩
  have hrow : ∀ {id r'}, db'.funds.reservations.lookup id = some r' →
      ∃ r, db.funds.reservations.lookup id = some r ∧ (r' = r ∨ r.GoesOn r') := by
    intro id r' hr'
    have hev := h.reservations id
    rw [hr'] at hev
    generalize db.funds.reservations.lookup id = o at hev ⊢
    cases hev with
    | same => exact ⟨r', rfl, .inl rfl⟩
    | made hfalse => exact hfalse.elim
    | turned hon => exact ⟨_, rfl, .inr hon⟩
  have hmem : ∀ {id}, id ∈ db.funds.reservations → id ∈ db'.funds.reservations := by
    intro id hid
    obtain ⟨r, hr⟩ := Option.isSome_iff_exists.mp (AList.lookup_isSome.mpr hid)
    obtain ⟨r', hr', -⟩ := (h.reservations id).relates (R := fun _ _ => True) trivial
      (fun _ _ => trivial) hr
    exact AList.lookup_isSome.mp (Option.isSome_of_eq_some hr')
  refine
    { intent := fun {id r'} hr' => ?_
      reservation := fun {k j} hj => ?_
      couples := fun {k j r'} hj hjkind hr' => ?_
      unique := fun {k k' j j'} hj hj' hid hjkind => ?_
      fence := fun {k k' j j'} hj hj' hjkind hjkind' hjun hjun' hkey => ?_
      receipt := fun {id x} hx => ?_
      owner := fun {id id' x x'} hx hx' => ?_
      mark := fun {id} hmark => ?_ }
  · obtain ⟨r, hr, -⟩ := hrow hr'
    obtain ⟨k, j, hj, hof⟩ := hc.intent hr
    obtain ⟨j', hj', hid, hkind⟩ := (h.outbox k).relates
      (R := fun i i' : ProtocolIntent => i'.reservationId = i.reservationId ∧ i'.kind = i.kind)
      ⟨rfl, rfl⟩ (fun i' hturn => by cases hturn.2 <;> exact ⟨rfl, rfl⟩) hj
    exact ⟨k, j', hj', hid.trans hof.reservationId, hkind.trans hof.kind⟩
  · obtain ⟨j₀, hj₀, hid, -⟩ := hback hj
    obtain ⟨r, hr⟩ := hc.reservation hj₀
    rw [← hid]
    exact Option.isSome_iff_exists.mp (AList.lookup_isSome.mpr
      (hmem (AList.lookup_isSome.mp (Option.isSome_of_eq_some hr))))
  · obtain ⟨j₀, hj₀, -, -, heq⟩ := hback hj
    obtain rfl := heq hjkind
    obtain ⟨r, hr, hon⟩ := hrow hr'
    obtain ⟨hproposed, hcouples⟩ := hc.couples hj₀ hjkind hr
    have hproposed' : r'.Proposes j := by
      rcases hon with rfl | hon
      · exact hproposed
      · have hpayload := congrArg Reservation.payload hon.terms
        have htext := congrArg Reservation.payloadText hon.terms
        exact ⟨hproposed.payload.trans hpayload.symm, htext.trans hproposed.text,
          hproposed.proposed⟩
    refine ⟨hproposed', hcouples.rested (hshape hr) h.receipts ?_ hon⟩
    refine (h.marks j.reservationId).imp_left ?_
    rintro ⟨r₀, hr₀, hsome⟩
    obtain rfl := Option.some.inj (hr₀.symm.trans hr)
    exact hsome
  · obtain ⟨j₀, hj₀, hid₀, hkind₀, -⟩ := hback hj
    obtain ⟨j₀', hj₀', hid₀', hkind₀', -⟩ := hback hj'
    exact hc.unique hj₀ hj₀' (hid₀.trans (hid.trans hid₀'.symm))
      (hkind₀.trans (hjkind.trans hkind₀'.symm))
  · obtain ⟨j₀, hj₀, -, -, heq⟩ := hback hj
    obtain ⟨j₀', hj₀', -, -, heq'⟩ := hback hj'
    obtain rfl := heq hjkind
    obtain rfl := heq' hjkind'
    exact hc.fence hj₀ hj₀' hjkind hjkind' hjun hjun' hkey
  · rw [h.receipts] at hx
    exact hmem (hc.receipt hx)
  · rw [h.receipts] at hx hx'
    exact hc.owner hx hx'
  · refine hmem ?_
    rcases h.marks id with ⟨r, hr, -⟩ | hsame
    · exact AList.lookup_isSome.mp (Option.isSome_of_eq_some hr)
    · rw [hsame] at hmark
      exact hc.mark hmark

theorem uploaded (hc : db.Coupled) {intentId : Uuid} {i : ProtocolIntent} (hi : db.Uploads i)
    (hfresh : intentId ∉ db.work.protocolOutbox)
    (houtbox : db'.work.protocolOutbox = AList.insert intentId i db.work.protocolOutbox)
    (hreceipts : db'.work.precommitReceipts = db.work.precommitReceipts)
    (hreservations : db'.funds.reservations = db.funds.reservations)
    (hmarks : ∀ id, db'.sentMark id = db.sentMark id) : db'.Coupled := by
  have hback : ∀ {k j}, db'.work.protocolOutbox.lookup k = some j →
      k = intentId ∧ j = i ∨ db.work.protocolOutbox.lookup k = some j := by
    intro k j hj
    rw [houtbox] at hj
    rcases Table.lookup_insert_cases hj with ⟨rfl, rfl⟩ | ⟨-, hj⟩
    · exact .inl ⟨rfl, rfl⟩
    · exact .inr hj
  have hpre : ∀ {k j}, db'.work.protocolOutbox.lookup k = some j → j.kind = .precommit →
      db.work.protocolOutbox.lookup k = some j := by
    intro k j hj hjkind
    rcases hback hj with ⟨-, rfl⟩ | hj
    · exact absurd hjkind hi.kind
    · exact hj
  refine
    { intent := fun {id r} hr => ?_
      reservation := fun {k j} hj => ?_
      couples := fun {k j r} hj hjkind hr => ?_
      unique := fun {k k' j j'} hj hj' hid hjkind => ?_
      fence := fun {k k' j j'} hj hj' hjkind hjkind' hjun hjun' hkey =>
        hc.fence (hpre hj hjkind) (hpre hj' hjkind') hjkind hjkind' hjun hjun' hkey
      receipt := fun {id x} hx => ?_
      owner := fun {id id' x x'} hx hx' => ?_
      mark := fun {id} hmark => ?_ }
  · rw [hreservations] at hr
    obtain ⟨k, j, hj, hof⟩ := hc.intent hr
    refine ⟨k, j, ?_, hof⟩
    rw [houtbox, Table.lookup_insert_eq, if_neg, hj]
    rintro rfl
    exact hfresh (AList.lookup_isSome.mp (Option.isSome_of_eq_some hj))
  · rw [hreservations]
    rcases hback hj with ⟨-, rfl⟩ | hj
    · obtain ⟨r, hr, -⟩ := hi.reservation
      exact ⟨r, hr⟩
    · exact hc.reservation hj
  · rw [hreservations] at hr
    obtain ⟨hproposed, hcouples⟩ := hc.couples (hpre hj hjkind) hjkind hr
    exact ⟨hproposed, hcouples.congr (by rw [hreceipts]) (hmarks _)⟩
  · rcases hback hj with ⟨rfl, rfl⟩ | hj <;> rcases hback hj' with ⟨rfl, rfl⟩ | hj'
    · rfl
    · exact absurd ⟨hid.symm, hjkind.symm⟩ (hi.fresh hj')
    · exact absurd ⟨hid, hjkind⟩ (hi.fresh hj)
    · exact hc.unique hj hj' hid hjkind
  · rw [hreceipts] at hx
    rw [hreservations]
    exact hc.receipt hx
  · rw [hreceipts] at hx hx'
    exact hc.owner hx hx'
  · rw [hmarks] at hmark
    rw [hreservations]
    exact hc.mark hmark

theorem reserved (hc : db.Coupled) {id intentId : Uuid} {r : Reservation} {i : ProtocolIntent}
    (hid : id ∉ db.funds.reservations) (hfresh : intentId ∉ db.work.protocolOutbox)
    (hstate : r.state = .reserved) (hproposed : r.Proposes i)
    (hof : i.PrecommitOf id) (hready : i.state = .ready)
    (hsent : i.sentAt = none)
    (houtbox : db'.work.protocolOutbox = AList.insert intentId i db.work.protocolOutbox)
    (hreceipts : db'.work.precommitReceipts = db.work.precommitReceipts)
    (hreservations : db'.funds.reservations = AList.insert id r db.funds.reservations)
    (hmarks : ∀ id, db'.sentMark id = db.sentMark id) : db'.Coupled := by
  obtain ⟨rfl, hkind⟩ := hof
  have hback : ∀ {k j}, db'.work.protocolOutbox.lookup k = some j →
      k = intentId ∧ j = i ∨ db.work.protocolOutbox.lookup k = some j := by
    intro k j hj
    rw [houtbox] at hj
    rcases Table.lookup_insert_cases hj with ⟨rfl, rfl⟩ | ⟨-, hj⟩
    · exact .inl ⟨rfl, rfl⟩
    · exact .inr hj
  -- No intent on record is for the new reservation.
  have hnew : ∀ {k j}, db.work.protocolOutbox.lookup k = some j →
      j.reservationId ≠ i.reservationId := by
    intro k j hj heq
    obtain ⟨r₀, hr₀⟩ := hc.reservation hj
    rw [heq] at hr₀
    exact hid (AList.lookup_isSome.mp (Option.isSome_of_eq_some hr₀))
  have hmem : ∀ {k}, k ∈ db.funds.reservations → k ∈ db'.funds.reservations := by
    intro k hk
    rw [hreservations]
    exact (AList.mem_insert _).mpr (.inr hk)
  have hunready : ∀ {j : ProtocolIntent}, j = i → j.state ≠ .uncertain := by
    rintro j rfl hj
    rw [hready] at hj
    cases hj
  refine
    { intent := fun {k r₁} hr₁ => ?_
      reservation := fun {k j} hj => ?_
      couples := fun {k j r₁} hj hjkind hr₁ => ?_
      unique := fun {k k' j j'} hj hj' hjid hjkind => ?_
      fence := fun {k k' j j'} hj hj' hjkind hjkind' hjun hjun' hkey => ?_
      receipt := fun {k x} hx => ?_
      owner := fun {k k' x x'} hx hx' => ?_
      mark := fun {k} hmark => ?_ }
  · rw [hreservations] at hr₁
    rcases Table.lookup_insert_cases hr₁ with ⟨rfl, -⟩ | ⟨-, hr₁⟩
    · exact ⟨intentId, i, by rw [houtbox, AList.lookup_insert], rfl, hkind⟩
    · obtain ⟨k', j, hj, hof⟩ := hc.intent hr₁
      refine ⟨k', j, ?_, hof⟩
      rw [houtbox, Table.lookup_insert_eq, if_neg, hj]
      rintro rfl
      exact hfresh (AList.lookup_isSome.mp (Option.isSome_of_eq_some hj))
  · rcases hback hj with ⟨-, rfl⟩ | hj
    · exact ⟨r, by rw [hreservations, AList.lookup_insert]⟩
    · obtain ⟨r₀, hr₀⟩ := hc.reservation hj
      exact Option.isSome_iff_exists.mp (AList.lookup_isSome.mpr
        (hmem (AList.lookup_isSome.mp (Option.isSome_of_eq_some hr₀))))
  · rw [hreservations] at hr₁
    rcases hback hj with ⟨-, rfl⟩ | hj
    · rw [AList.lookup_insert] at hr₁
      obtain rfl := Option.some.inj hr₁
      have hnone : db.work.precommitReceipts.lookup j.reservationId = none := by
        rw [Option.eq_none_iff_forall_ne_some]
        exact fun x hx => hid (hc.receipt hx)
      have hunmarked : db.sentMark j.reservationId = none := by
        rw [← Option.not_isSome_iff_eq_none]
        exact fun hmark => hid (hc.mark hmark)
      refine ⟨hproposed, ?_⟩
      rw [Couples, hready]
      exact ⟨hstate, by rw [hreceipts, hnone], hsent, by rw [hmarks, hunmarked]⟩
    · rw [AList.lookup_insert_ne (hnew hj)] at hr₁
      obtain ⟨hproposed, hcouples⟩ := hc.couples hj hjkind hr₁
      exact ⟨hproposed, hcouples.congr (by rw [hreceipts]) (hmarks _)⟩
  · rcases hback hj with ⟨rfl, rfl⟩ | hj <;> rcases hback hj' with ⟨rfl, rfl⟩ | hj'
    · rfl
    · exact absurd hjid.symm (hnew hj')
    · exact absurd hjid (hnew hj)
    · exact hc.unique hj hj' hjid hjkind
  · rcases hback hj with ⟨-, heq⟩ | hj
    · exact absurd hjun (hunready heq)
    · rcases hback hj' with ⟨-, heq⟩ | hj'
      · exact absurd hjun' (hunready heq)
      · exact hc.fence hj hj' hjkind hjkind' hjun hjun' hkey
  · rw [hreceipts] at hx
    exact hmem (hc.receipt hx)
  · rw [hreceipts] at hx hx'
    exact hc.owner hx hx'
  · rw [hmarks] at hmark
    exact hmem (hc.mark hmark)

/-- Whatever a transaction does to submissions, the tables stay coupled. -/
theorem dispatched (hc : db.Coupled) (hshape : ∀ {id r}, db.funds.reservations.lookup id = some r →
    r.Shape) (h : db.Dispatches db') : db'.Coupled := by
  cases h with
  | rests h => exact hc.rested hshape h
  | uploaded hi hfresh houtbox hreceipts hreservations hmarks =>
      exact hc.uploaded hi hfresh houtbox hreceipts hreservations hmarks
  | reserved hid hfresh hstate hproposed hof hready hsent houtbox hreceipts hreservations hmarks =>
      exact hc.reserved hid hfresh hstate hproposed hof hready hsent houtbox hreceipts
        hreservations hmarks
  | authorised hi hkind hready hr hstate hfence houtbox hreceipts hreservations hmarks =>
      obtain ⟨-, hnone, -, -⟩ := hc.reserved_of_ready hi hkind hr hready
      refine hc.turned hi hkind hr (Table.lookup_of_insert houtbox)
        (Table.lookup_of_insert hreservations) ⟨rfl, hkind⟩ (fun hp => ⟨hp.1, hp.2, hp.3⟩)
        (fun k _ => by rw [hreceipts]) (fun hx hx' => ?_) hmarks ?_ ?_
      · rw [hreceipts] at hx hx'
        exact hc.owner hx hx'
      · exact ⟨rfl, by rw [hreceipts]; exact hnone, rfl⟩
      · exact fun _ k j hj _ hjun hkey => absurd hjun (hfence k j hj hkey)
  | withdrawn hi hkind hready hr hstate houtbox hreceipts hreservations hmarks =>
      obtain ⟨-, hnone, hsent, hunmarked⟩ := hc.reserved_of_ready hi hkind hr hready
      refine hc.turned hi hkind hr (Table.lookup_of_insert houtbox)
        (Table.lookup_of_insert hreservations) ⟨rfl, hkind⟩ (fun hp => ⟨hp.1, hp.2, hp.3⟩)
        (fun k _ => by rw [hreceipts]) (fun hx hx' => ?_) (fun k _ => hmarks k) ?_ nofun
      · rw [hreceipts] at hx hx'
        exact hc.owner hx hx'
      · exact ⟨rfl, (hshape hr).unnamed (.inl hstate), by rw [hreceipts]; exact hnone, hsent,
          (hmarks _).trans hunmarked⟩
  | answered hi hkind hun hfresh houtbox hreceipts hreservations hmarks =>
      obtain ⟨r, hr⟩ := hc.reservation hi
      obtain ⟨hstate, hnone, -⟩ := hc.uncertain_of_uncertain hi hkind hr hun
      refine hc.turned hi hkind hr (Table.lookup_of_insert houtbox) (fun k => ?_)
        ⟨rfl, hkind⟩ (fun hp => ⟨hp.1, hp.2, hp.3⟩)
        (fun k hne => by rw [hreceipts, Table.lookup_insert_eq, if_neg hne])
        (fun {k k' x x'} hx hx' hsame => ?_) (fun k _ => hmarks k) ?_ nofun
      · rw [hreservations]
        split
        next heq => rw [heq, hr]
        next => rfl
      · rw [hreceipts] at hx hx'
        rcases Table.lookup_insert_cases hx with ⟨rfl, rfl⟩ | ⟨-, hold⟩ <;>
          rcases Table.lookup_insert_cases hx' with ⟨rfl, rfl⟩ | ⟨-, hold'⟩
        · rfl
        · exact absurd hsame.symm (hfresh _ _ hold')
        · exact absurd hsame (hfresh _ _ hold)
        · exact hc.owner hold hold' hsame
      · exact ⟨_, by rw [hreceipts]; exact AList.lookup_insert _, .inl hstate⟩
  | refused hi hkind hun hr hstate houtbox hreceipts hreservations hmarks =>
      obtain ⟨-, hnone, -⟩ := hc.uncertain_of_uncertain hi hkind hr hun
      refine hc.turned hi hkind hr (Table.lookup_of_insert houtbox)
        (Table.lookup_of_insert hreservations) ⟨rfl, hkind⟩ (fun hp => ⟨hp.1, hp.2, hp.3⟩)
        (fun k _ => by rw [hreceipts]) (fun hx hx' => ?_) (fun k _ => hmarks k) ?_ nofun
      · rw [hreceipts] at hx hx'
        exact hc.owner hx hx'
      · exact ⟨rfl, by rw [hreceipts]; exact hnone⟩
  | published hr hstate hreceipt houtbox hreceipts hreservations hmarks =>
      obtain ⟨intentId, i, hi, rfl, hkind⟩ := hc.intent hr
      -- Work that may have been sent and has a receipt is accepted.
      have haccepted : i.state = .accepted := by
        have hcouples := (hc.couples hi hkind hr).2
        unfold Couples at hcouples
        split at hcouples <;> simp_all
      refine hc.turned hi hkind hr (fun k => ?_)
        (Table.lookup_of_insert hreservations) ⟨rfl, hkind⟩ (fun hp => ⟨hp.1, hp.2, hp.3⟩)
        (fun k _ => by rw [hreceipts]) (fun hx hx' => ?_) (fun k _ => hmarks k) ?_ ?_
      · rw [houtbox]
        split
        next heq => rw [heq, hi]
        next => rfl
      · rw [hreceipts] at hx hx'
        exact hc.owner hx hx'
      · rw [Couples, haccepted]
        exact ⟨_, by rw [hreceipts]; exact hreceipt, .inr rfl⟩
      · intro hun
        rw [haccepted] at hun
        cases hun

end Coupled

end Db

end TigPool
