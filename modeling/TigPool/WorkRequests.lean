/-
# `TigPool.WorkRequests` — expiring offers and the queue that makes reservations

`reserveNext` is the only caller of `reserve` in the service.  It works on the
newest observed block, so a reservation belongs to the round of that block.
-/
import TigPool.Settlement

namespace TigPool

open Basis

namespace WorkRequests

/-- Validate one compute offer. -/
def offer (resource computeType : String) (capacity : Json) : Result Offer :=
  let family := match resource with
    | "CPU" => some Resource.CPU
    | "GPU" => some Resource.GPU
    | _ => none
  match family with
  | none => .error (.funds
      "offer must specify one compatible CPU or GPU verification compute type")
  | some family =>
      if h : computeFamily computeType = some family then
        match capacity with
        | .obj [("workers", .int workers)] =>
            if hworkers : 1 ≤ workers.toNat ∧ workers.toNat ≤ 4096 then
              .ok ⟨family, computeType, workers.toNat, h, hworkers⟩
            else .error (.funds "capacity requires a positive worker count up to 4096")
        | _ => .error (.funds "capacity requires a positive worker count up to 4096")
      else .error (.funds
        "offer must specify one compatible CPU or GPU verification compute type")

def create (db : Db) (memberId : Uuid) (requestKey resource computeType : String)
    (capacity : Json) (ttl : ℤ) (identity : Uuid) : Result (Db × Uuid) := do
  let offer ← offer resource computeType capacity
  require (1 ≤ requestKey.length ∧ requestKey.length ≤ 128 ∧ 5 ≤ ttl ∧ ttl ≤ 600)
    (.funds "invalid request key or configured offer lifetime")
  let _ ← memberLock db memberId
  match db.work.workRequests.find fun _ w => w.memberId = memberId ∧ w.requestKey = requestKey with
  | some (existing, row) =>
      require (row.offer = offer)
        (.conflict "work request key was reused for a different compute offer")
      return (db, existing)
  | none =>
      require (identity ∉ db.work.workRequests) (.integrity "work_requests_pkey")
      let row : WorkRequest :=
        { memberId, requestKey, offer, state := .queued, expiresAt := db.clock + seconds ttl,
          reservationId := none }
      return (db.putRequest identity row, identity)

def refresh (db : Db) (identity memberId : Uuid) (ttl : ℤ) : Result Db := do
  let row ← fetch (db.work.workRequests.lookup identity)
    (.conflict "only a queued compute offer can be refreshed")
  require (row.memberId = memberId ∧ row.state = .queued)
    (.conflict "only a queued compute offer can be refreshed")
  require (db.clock < row.expiresAt) (.conflict "compute offer expired; submit a new request key")
  require (row.expiresAt ≤ db.clock + seconds ttl)
    (.integrity "immutable member work offer or reservation")
  return db.putRequest identity { row with expiresAt := db.clock + seconds ttl }

/-- Queue a submission for a reservation, one of each kind. -/
def enqueue (db : Db) (reservationId : Uuid) (kind : IntentKind) (payload : Json)
    (identity : Uuid) : Result Db := do
  match db.work.protocolOutbox.find fun _ i => i.reservationId = reservationId ∧ i.kind = kind with
  | some (_, existing) =>
      require (existing.digest = payload)
        (.conflict "existing submission intent has different immutable inputs")
      return db
  | none =>
      require (identity ∉ db.work.protocolOutbox) (.integrity "protocol_outbox_pkey")
      return db.putIntent identity
        { reservationId, kind, payload, payloadText := payload, digest := payload,
          createdAt := db.clock }

/-- What the work request of a member shows as its state. -/
inductive ViewState where
  | request (state : RequestState)
  | benchmark (state : ReservationState)
  | assigned
deriving DecidableEq

/-- A work request as its member sees it, with what its reservation has become. -/
structure View where
  request : WorkRequest
  benchmarkId : Option String
  benchmarkState : Option ReservationState
  state : ViewState

def View.requestState (view : View) : RequestState :=
  view.request.state

/-- The states of a reservation that its member is shown. -/
def shown : ReservationState → Bool
  | .active | .expired | .verificationFailed | .rejected | .cancelled => true
  | .reserved | .uncertain | .accepted => false

def view (request : WorkRequest) (reservation : Option Reservation) : View :=
  let benchmarkId := reservation.bind (·.benchmarkId)
  let benchmarkState := reservation.map (·.state)
  { request, benchmarkId, benchmarkState
    state := match benchmarkState.filter shown with
      | some state => .benchmark state
      | none => if benchmarkId.isSome then .assigned else .request request.state }

/-- Retire an offer of the member past its expiry. -/
def expireOwn (db : Db) (identity memberId : Uuid) : Db :=
  match db.work.workRequests.lookup identity with
  | some w =>
      if w.memberId = memberId ∧ w.state = .queued ∧ w.expiresAt ≤ db.clock then
        db.putRequest identity { w with state := .expired }
      else db
  | none => db

def get (db : Db) (identity memberId : Uuid) : Result (Db × View) := do
  let db := expireOwn db identity memberId
  let row ← fetch (db.work.workRequests.lookup identity) (.funds "unknown member work request")
  require (row.memberId = memberId) (.funds "unknown member work request")
  return (db, view row (row.reservationId.bind db.funds.reservations.lookup))

/-- Retire every queued offer past its expiry. -/
def expireQueued (db : Db) : Db :=
  let expire (_ : Uuid) (w : WorkRequest) : WorkRequest :=
    if w.state = .queued ∧ w.expiresAt ≤ db.clock then { w with state := .expired } else w
  { db with work := { db.work with workRequests := db.work.workRequests.mapVals expire } }

/-- Is any member waiting for work? -/
def hasQueued (db : Db) : Db × Bool :=
  let db := expireQueued db
  (db, db.work.workRequests.any fun _ w => w.state = .queued)

/-- What `choose` selects for an offer, from the current snapshot. -/
structure Selection where
  creationRound : ℕ
  payload : Json
  evidence : Json
  baseCollateral : ℕ
  maxSubmissionFee : ℤ

/-- The payload that `choose` makes of its choice; which track it will be is left to TIG. -/
def proposal (playerId blockId challengeId algorithmId computeType : String) (tracks : Json) :
    Json :=
  .obj [("compute_type", .str computeType),
    ("settings", .obj [("algorithm_id", .str algorithmId), ("block_id", .str blockId),
      ("challenge_id", .str challengeId), ("player_id", .str playerId), ("track_id", .str "")]),
    ("track_settings", tracks)]

/-- `choose` works on the replay of the block, whose round it takes over: it notes in its
evidence which block that is, and proposes its choice. -/
def Chooses (db : Db) (blockId : String) (choose : WorkRequest → Result (Option Selection)) :
    Prop :=
  ∀ request selection, choose request = .ok (some selection) →
    (∀ block, db.observation.blocks.lookup blockId = some block →
      selection.creationRound = block.round) ∧
    selection.evidence.get? "block_id" = some (.str blockId) ∧
      ∃ playerId challengeId algorithmId computeType tracks,
        selection.payload = proposal playerId blockId challengeId algorithmId computeType tracks

/-- Fresh identities for the reservation and the intent of one attempt. -/
structure FreshIds where
  reservation : Uuid
  intent : Uuid

/-- Queue the submission of a new reservation and mark the request. -/
def handOver (db : Db) (requestId : Uuid) (request : WorkRequest) (payload : Json)
    (reservation intent : Uuid) : Result Db := do
  let db ← enqueue db reservation .precommit payload intent
  return db.putRequest requestId
    { request with state := .reserved, reservationId := some reservation }

/-- Reserve what was selected for a request; `none` if it cannot be funded or is in
conflict, which rolls the reservation back to its savepoint. -/
def tryReserve (db : Db) (around : Surroundings) (fresh : FreshIds)
    (requestId : Uuid) (request : WorkRequest) (selection : Selection) :
    Result (Option (Db × Uuid)) :=
  match reserve db request.memberId requestId selection.creationRound request.offer.resource
      selection.evidence selection.payload selection.maxSubmissionFee request.expiresAt around
      fresh.reservation with
  | .error (.insufficientFunds _) | .error (.conflict _) => .ok none
  | .error e => .error e
  | .ok (reserved, reservation) => do
      let db ← handOver reserved requestId request selection.payload reservation fresh.intent
      return some (db, reservation)

/-- One request's turn; `none` if it is passed over.  `choose` finds nothing where the
service raises `NoCompatibleWork`; any other error of it ends the whole attempt. -/
def attempt (db : Db) (choose : WorkRequest → Result (Option Selection))
    (around : Surroundings) (pilot : WorkRequest → Result Unit) (fresh : FreshIds)
    (requestId : Uuid) : Result (Option (Db × Uuid)) :=
  match (db.work.workRequests.lookup requestId).filter (·.state = .queued) with
  | none => .ok none
  | some request => do
      match ← choose request with
      | none => return none
      | some selection =>
          tryReserve db { around with pilot := pilot request } fresh requestId request selection

/-- Try the queued requests in turn. -/
def tryQueue (db : Db) (choose : WorkRequest → Result (Option Selection))
    (around : Surroundings) (pilot : WorkRequest → Result Unit) (fresh : FreshIds) :
    List Uuid → Result (Db × Option Uuid)
  | [] => .ok (db, none)
  | requestId :: rest => do
      match ← attempt db choose around pilot fresh requestId with
      | none => tryQueue db choose around pilot fresh rest
      | some (db, reservation) => return (db, some reservation)

/-- The newest observed block. -/
def newestBlock (db : Db) : Option (String × ObservedBlock) :=
  (db.observation.blocks.entries.map fun e => (e.1, e.2)).argmax fun e => e.2.height

/-- Reserve work for the first queued member who can fund it.  `blockId` is the
block the selection was made from; `queue` lists the requests in the order they
are tried. -/
def reserveNext (db : Db) (blockId : String)
    (choose : WorkRequest → Result (Option Selection)) (queue : List Uuid)
    (around : Surroundings) (pilot : WorkRequest → Result Unit) (fresh : FreshIds) :
    Result (Db × Option Uuid) := do
  if (blocked db around).isSome then
    return (db, none)
  let (newest, block) ← fetch (newestBlock db) (.protocolData "no complete current snapshot")
  require (newest = blockId) (.protocolData "new block arrived before work reservation")
  require (Reports.hasUnresolvedConflict db block.height = false)
    (.protocolData "current snapshot has conflicting evidence")
  tryQueue (expireQueued db) choose around pilot fresh queue

theorem newestBlock_spec {db : Db} {id : String} {b : ObservedBlock}
    (h : newestBlock db = some (id, b)) : db.observation.blocks.lookup id = some b ∧
      ∀ id' b', db.observation.blocks.lookup id' = some b' → b'.height ≤ b.height := by
  have hmax : (id, b) ∈ (db.observation.blocks.entries.map fun e => (e.1, e.2)).argmax
      fun e => e.2.height := h
  constructor
  · obtain ⟨e, he, heq⟩ := List.mem_map.mp (List.argmax_mem hmax)
    obtain ⟨rfl, rfl⟩ := Prod.mk.inj heq
    exact Table.mem_entries_iff.mp he
  · intro id' b' hb'
    have hmem : (id', b') ∈ db.observation.blocks.entries.map fun e => (e.1, e.2) :=
      List.mem_map.mpr ⟨⟨id', b'⟩, Table.mem_entries_iff.mpr hb', rfl⟩
    exact @List.le_of_mem_argmax _ _ _ (fun e : String × ObservedBlock => e.2.height) _ _ _ hmem
      hmax

/-! ## Members and their requests -/

/-- Nothing is written but work requests. -/
def Asks (db db' : Db) : Prop :=
  ∃ requests, db' = { db with work := { db.work with workRequests := requests } }

/-- A key that is on record names the same offer again; otherwise it is taken. -/
theorem create_spec {db db' : Db} {memberId identity out : Uuid}
    {requestKey resource computeType : String} {capacity : Json} {ttl : ℤ}
    (h : create db memberId requestKey resource computeType capacity ttl identity
      = .ok (db', out)) :
    ∃ given, offer resource computeType capacity = .ok given ∧
      ((∃ row, db.work.workRequests.lookup out = some row ∧
        (row.memberId = memberId ∧ row.requestKey = requestKey) ∧ row.offer = given ∧ db' = db) ∨
      (∀ id row, db.work.workRequests.lookup id = some row →
        ¬ (row.memberId = memberId ∧ row.requestKey = requestKey)) ∧
      identity ∉ db.work.workRequests ∧ out = identity ∧
      db' = db.putRequest identity
        { memberId, requestKey, offer := given, state := .queued
          expiresAt := db.clock + seconds ttl, reservationId := none }) := by
  simp only [create, bind_eq_ok, require_eq_ok, exists_const] at h
  obtain ⟨given, hgiven, -, _, -, h⟩ := h
  refine ⟨given, hgiven, ?_⟩
  split at h
  next existing row hfound =>
    simp only [bind_eq_ok, require_eq_ok, exists_const, pure_eq_ok, Prod.mk.injEq] at h
    obtain ⟨hsame, rfl, rfl⟩ := h
    obtain ⟨hrow, hkey⟩ := Table.find_eq_some hfound
    exact .inl ⟨row, hrow, of_decide_eq_true hkey, hsame, rfl⟩
  next hnone =>
    simp only [bind_eq_ok, require_eq_ok, exists_const, pure_eq_ok, Prod.mk.injEq] at h
    obtain ⟨hfresh, rfl, rfl⟩ := h
    refine .inr ⟨fun id row hrow hkey => ?_, hfresh, rfl, rfl⟩
    have hnot := Table.find_eq_none.mp hnone id row hrow
    simp [hkey] at hnot

theorem refresh_spec {db db' : Db} {identity memberId : Uuid} {ttl : ℤ}
    (h : refresh db identity memberId ttl = .ok db') :
    ∃ row, db.work.workRequests.lookup identity = some row ∧ row.memberId = memberId ∧
      row.state = .queued ∧ db.clock < row.expiresAt ∧ row.expiresAt ≤ db.clock + seconds ttl ∧
      db' = db.putRequest identity { row with expiresAt := db.clock + seconds ttl } := by
  simp only [refresh, bind_eq_ok, require_eq_ok, exists_const, fetch_eq_ok, pure_eq_ok] at h
  obtain ⟨row, hrow, ⟨howner, hqueued⟩, hlive, hlater, rfl⟩ := h
  exact ⟨row, hrow, howner, hqueued, hlive, hlater, rfl⟩

theorem expireOwn_cases (db : Db) (identity memberId : Uuid) :
    expireOwn db identity memberId = db ∨ ∃ w, db.work.workRequests.lookup identity = some w ∧
      w.state = .queued ∧
      expireOwn db identity memberId = db.putRequest identity { w with state := .expired } := by
  unfold expireOwn
  split
  next w hw =>
    split
    next hexpires => exact .inr ⟨w, hw, hexpires.2.1, rfl⟩
    next => exact .inl rfl
  next => exact .inl rfl

/-- What a member sees is the row on record after its offer was retired, if that was due. -/
theorem get_spec {db db' : Db} {identity memberId : Uuid} {out : View}
    (h : get db identity memberId = .ok (db', out)) :
    (db' = db ∨ ∃ w, db.work.workRequests.lookup identity = some w ∧ w.state = .queued ∧
      db' = db.putRequest identity { w with state := .expired }) ∧
    ∃ row, db'.work.workRequests.lookup identity = some row ∧ row.memberId = memberId ∧
      out = view row (row.reservationId.bind db'.funds.reservations.lookup) := by
  simp only [get, bind_eq_ok, fetch_eq_ok, require_eq_ok, exists_const, pure_eq_ok,
    Prod.mk.injEq] at h
  obtain ⟨row, hrow, howner, rfl, rfl⟩ := h
  exact ⟨expireOwn_cases db identity memberId, row, hrow, howner, rfl⟩

section Asks

variable {db db' : Db} {identity memberId out : Uuid} {requestKey resource computeType : String}
  {capacity : Json} {ttl : ℤ} {seen : View}

theorem create_asks (h : create db memberId requestKey resource computeType capacity ttl identity
    = .ok (db', out)) : Asks db db' := by
  obtain ⟨given, -, ⟨row, -, -, -, rfl⟩ | ⟨-, -, -, rfl⟩⟩ := create_spec h
  · exact ⟨_, rfl⟩
  · exact ⟨_, rfl⟩

theorem refresh_asks (h : refresh db identity memberId ttl = .ok db') : Asks db db' := by
  obtain ⟨row, -, -, -, -, -, rfl⟩ := refresh_spec h
  exact ⟨_, rfl⟩

theorem get_asks (h : get db identity memberId = .ok (db', seen)) : Asks db db' := by
  rcases (get_spec h).1 with rfl | ⟨w, -, -, rfl⟩
  · exact ⟨_, rfl⟩
  · exact ⟨_, rfl⟩

end Asks

/-! ## What a turn found -/

variable {db db' : Db} {choose : WorkRequest → Result (Option Selection)}
  {around : Surroundings} {pilot : WorkRequest → Result Unit} {fresh : FreshIds}
  {requestId out : Uuid} {request : WorkRequest} {selection : Selection}

theorem tryReserve_spec
    (h : tryReserve db around fresh requestId request selection = .ok (some (db', out))) :
    ∃ reserved, reserve db request.memberId requestId selection.creationRound
        request.offer.resource selection.evidence selection.payload selection.maxSubmissionFee
        request.expiresAt around fresh.reservation = .ok (reserved, out) ∧
      handOver reserved requestId request selection.payload out fresh.intent = .ok db' := by
  unfold tryReserve at h
  split at h
  next => cases h
  next => cases h
  next => cases h
  next reserved reservation hreserve =>
    simp only [bind_eq_ok, pure_eq_ok, Option.some.injEq, Prod.mk.injEq] at h
    obtain ⟨db₁, hdb, rfl, rfl⟩ := h
    exact ⟨reserved, hreserve, hdb⟩

theorem attempt_spec
    (h : attempt db choose around pilot fresh requestId = .ok (some (db', out))) :
    ∃ request selection, db.work.workRequests.lookup requestId = some request ∧
      request.state = .queued ∧ choose request = .ok (some selection) ∧
      tryReserve db { around with pilot := pilot request } fresh requestId request selection
        = .ok (some (db', out)) := by
  unfold attempt at h
  split at h
  next => cases h
  next request hrequest =>
    obtain ⟨hlookup, hqueued⟩ := Option.filter_eq_some_iff.mp hrequest
    obtain ⟨choice, hchoice, h⟩ := bind_eq_ok.mp h
    cases choice with
    | none => cases h
    | some selection =>
        exact ⟨request, selection, hlookup, of_decide_eq_true hqueued, hchoice, h⟩

/-- The queue is passed over as a whole, or one request has its turn. -/
theorem tryQueue_spec {queue : List Uuid} {out : Option Uuid}
    (h : tryQueue db choose around pilot fresh queue = .ok (db', out)) :
    (db' = db ∧ out = none) ∨ ∃ requestId ∈ queue, ∃ reservation, out = some reservation ∧
      attempt db choose around pilot fresh requestId = .ok (some (db', reservation)) := by
  induction queue with
  | nil =>
      obtain ⟨rfl, rfl⟩ := Prod.mk.inj (Except.ok.inj h)
      exact Or.inl ⟨rfl, rfl⟩
  | cons requestId rest ih =>
      obtain ⟨turn, hturn, h⟩ := bind_eq_ok.mp h
      cases turn with
      | none =>
          refine (ih h).imp_right ?_
          rintro ⟨other, hother, hspec⟩
          exact ⟨other, List.mem_cons_of_mem _ hother, hspec⟩
      | some result =>
          obtain ⟨rfl, rfl⟩ := Prod.mk.inj (Except.ok.inj h)
          exact Or.inr ⟨requestId, List.mem_cons_self .., result.2, rfl, hturn⟩

/-- What reserving from the queue found: the newest block, without conflict, and a queued
request whose offer had not expired. -/
theorem reserveNext_spec {blockId : String} {queue : List Uuid} {out : Option Uuid}
    (h : reserveNext db blockId choose queue around pilot fresh = .ok (db', out)) :
    (db' = db ∧ out = none) ∨ ∃ block, newestBlock db = some (blockId, block) ∧
      Reports.hasUnresolvedConflict db block.height = false ∧
      tryQueue (expireQueued db) choose around pilot fresh queue = .ok (db', out) := by
  unfold reserveNext at h
  split at h
  next =>
    obtain ⟨rfl, rfl⟩ := Prod.mk.inj (Except.ok.inj h)
    exact Or.inl ⟨rfl, rfl⟩
  next =>
    simp only [bind_eq_ok, require_eq_ok, exists_const, fetch_eq_ok] at h
    obtain ⟨⟨newest, block⟩, hnewest, rfl, hconflict, h⟩ := h
    exact Or.inr ⟨block, hnewest, hconflict, h⟩

end WorkRequests

end TigPool
