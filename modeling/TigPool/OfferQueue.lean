/-
# `TigPool.OfferQueue` — whether one bad offer blocks the queue

`reserve_next` takes the queued requests in turn.  A request that finds no work, or whose
reservation cannot be funded or is in conflict, is passed over and leaves nothing behind.
Any other failure of a selection or a reservation ends the call.  So a request behind is
served as if it were alone exactly when no request in front of the first one that could
be served fails in such a way.
-/
import TigPool.Selection
import TigPool.Service

namespace TigPool

open Basis

namespace WorkRequests

variable {db : Db} {round : ℕ} {choose : WorkRequest → Result (Option Selection)}
  {around : Surroundings} {pilot : WorkRequest → Result Unit} {fresh : FreshIds}
  {requestId : Uuid} {queue : List Uuid}

/-- The call returned a reservation. -/
def Served (outcome : Result (Db × Option Uuid)) : Prop :=
  ∃ db' reservation, outcome = .ok (db', some reservation)

/-- If some request of the queue would be served alone, the queue is served, and as if that
request had been alone: the others leave no money, slot or intent behind. -/
def ServesQueue (outcome : List Uuid → Result (Db × Option Uuid)) (queue : List Uuid) : Prop :=
  (∃ requestId ∈ queue, Served (outcome [requestId])) →
    ∃ requestId ∈ queue, Served (outcome [requestId]) ∧ outcome queue = outcome [requestId]

/-- The selection or the reservation of a queued request fails with an error that
`reserve_next` does not catch. -/
def Obstructs (db : Db) (choose : WorkRequest → Result (Option Selection))
    (around : Surroundings) (pilot : WorkRequest → Result Unit) (fresh : FreshIds)
    (requestId : Uuid) : Prop :=
  ∃ request, db.work.workRequests.lookup requestId = some request ∧ request.state = .queued ∧
    ((∃ e, choose request = .error e) ∨ ∃ selection, choose request = .ok (some selection) ∧
      ∃ e, tryReserve db { around with pilot := pilot request } fresh requestId request
        selection = .error e)

/-! ## Turns -/

theorem attempt_error_iff :
    (∃ e, attempt db choose around pilot fresh requestId = .error e) ↔
      Obstructs db choose around pilot fresh requestId := by
  unfold attempt Obstructs
  cases hrequest : (db.work.workRequests.lookup requestId).filter (·.state = .queued) with
  | none =>
      constructor
      · rintro ⟨e, he⟩
        cases he
      · rintro ⟨request, hlookup, hqueued, -⟩
        rw [hlookup, Option.filter_some, if_pos (decide_eq_true hqueued)] at hrequest
        cases hrequest
  | some request =>
      obtain ⟨hlookup, hqueued⟩ := Option.filter_eq_some_iff.mp hrequest
      constructor
      · rintro ⟨e, he⟩
        refine ⟨request, hlookup, of_decide_eq_true hqueued, ?_⟩
        cases hchoice : choose request with
        | error e' => exact Or.inl ⟨e', rfl⟩
        | ok choice =>
            cases choice with
            | none => simp [hchoice, bind, Except.bind, pure, Except.pure] at he
            | some selection =>
                refine Or.inr ⟨selection, rfl, e, ?_⟩
                simpa [hchoice, bind, Except.bind] using he
      · rintro ⟨request', hlookup', -, hfails⟩
        obtain rfl := Option.some.inj (hlookup.symm.trans hlookup')
        rcases hfails with ⟨e, he⟩ | ⟨selection, hselection, e, he⟩
        · exact ⟨e, by simp [he, bind, Except.bind]⟩
        · exact ⟨e, by simp [hselection, he, bind, Except.bind]⟩

/-- Requests that are passed over do not matter. -/
theorem tryQueue_passed {before after : List Uuid}
    (h : ∀ q ∈ before, attempt db choose around pilot fresh q = .ok none) :
    tryQueue db choose around pilot fresh (before ++ after)
      = tryQueue db choose around pilot fresh after := by
  induction before with
  | nil => rfl
  | cons q rest ih =>
      show (attempt db choose around pilot fresh q >>= _) = _
      rw [h q (List.mem_cons_self ..)]
      exact ih fun q hq => h q (List.mem_cons_of_mem _ hq)

theorem tryQueue_served {db' : Db} {reservation : Uuid} {after : List Uuid}
    (h : attempt db choose around pilot fresh requestId = .ok (some (db', reservation))) :
    tryQueue db choose around pilot fresh (requestId :: after)
      = .ok (db', some reservation) := by
  show (attempt db choose around pilot fresh requestId >>= _) = _
  rw [h]
  rfl

/-- A request that is not served by itself is passed over, or obstructs. -/
theorem attempt_of_not_served
    (hnot : ¬ Served (tryQueue db choose around pilot fresh [requestId])) :
    attempt db choose around pilot fresh requestId = .ok none ∨
      Obstructs db choose around pilot fresh requestId := by
  cases h : attempt db choose around pilot fresh requestId with
  | error e => exact Or.inr (attempt_error_iff.mp ⟨e, h⟩)
  | ok turn =>
      cases turn with
      | none => exact Or.inl rfl
      | some result => exact absurd ⟨result.1, result.2, tryQueue_served h⟩ hnot

/-- Nothing behind a request that obstructs is reached, unless one in front is served. -/
theorem tryQueue_obstructed {before after : List Uuid}
    (hnot : ∀ q ∈ before, ¬ Served (tryQueue db choose around pilot fresh [q]))
    (hobstructs : ∃ q ∈ before, Obstructs db choose around pilot fresh q) :
    ¬ Served (tryQueue db choose around pilot fresh (before ++ after)) := by
  induction before with
  | nil =>
      obtain ⟨q, hq, -⟩ := hobstructs
      cases hq
  | cons q rest ih =>
      intro hserved
      rcases attempt_of_not_served (hnot q (List.mem_cons_self ..)) with hpassed | hq
      · have hrest : ∃ q ∈ rest, Obstructs db choose around pilot fresh q := by
          obtain ⟨q', hmem, hq'⟩ := hobstructs
          rcases List.mem_cons.mp hmem with rfl | hmem
          · obtain ⟨e, he⟩ := attempt_error_iff.mpr hq'
            rw [hpassed] at he
            cases he
          · exact ⟨q', hmem, hq'⟩
        refine ih (fun q hq => hnot q (List.mem_cons_of_mem _ hq)) hrest ?_
        have hpass := @tryQueue_passed db choose around pilot fresh [q] (rest ++ after)
          fun q' hq' => by rwa [List.mem_singleton.mp hq']
        rwa [← hpass]
      · obtain ⟨e, he⟩ := attempt_error_iff.mpr hq
        obtain ⟨db', reservation, hok⟩ := hserved
        change (attempt db choose around pilot fresh q >>= _) = _ at hok
        rw [he] at hok
        cases hok

/-- The first element of a list with a property. -/
theorem exists_first {α : Type} {p : α → Prop} {xs : List α} (h : ∃ x ∈ xs, p x) :
    ∃ before x after, xs = before ++ x :: after ∧ p x ∧ ∀ y ∈ before, ¬ p y := by
  classical
  induction xs with
  | nil =>
      obtain ⟨x, hx, -⟩ := h
      cases hx
  | cons x rest ih =>
      by_cases hx : p x
      · exact ⟨[], x, rest, rfl, hx, List.forall_mem_nil _⟩
      · obtain ⟨y, hy, hpy⟩ := h
        have hrest : ∃ y ∈ rest, p y := by
          rcases List.mem_cons.mp hy with rfl | hy
          · exact absurd hpy hx
          · exact ⟨y, hy, hpy⟩
        obtain ⟨before, y, after, rfl, hpy, hnot⟩ := ih hrest
        exact ⟨x :: before, y, after, rfl, hpy, List.forall_mem_cons.mpr ⟨hx, hnot⟩⟩

/-- The queue is served as if the first request that could be served were alone, exactly
when none in front of it obstructs. -/
theorem tryQueue_serves_iff :
    ServesQueue (tryQueue db choose around pilot fresh) queue ↔
      ∀ before requestId after, queue = before ++ requestId :: after →
        Served (tryQueue db choose around pilot fresh [requestId]) →
        (∀ q ∈ before, ¬ Served (tryQueue db choose around pilot fresh [q])) →
        ∀ q ∈ before, ¬ Obstructs db choose around pilot fresh q := by
  constructor
  · rintro hserves before requestId after rfl hserved hnot q hq hobstructs
    obtain ⟨r, -, hr, heq⟩ :=
      hserves ⟨requestId, List.mem_append_right _ (List.mem_cons_self ..), hserved⟩
    rw [← heq] at hr
    exact tryQueue_obstructed hnot ⟨q, hq, hobstructs⟩ hr
  · intro hclear hsome
    obtain ⟨before, requestId, after, rfl, hserved, hnot⟩ := exists_first hsome
    refine ⟨requestId, List.mem_append_right _ (List.mem_cons_self ..), hserved, ?_⟩
    rw [tryQueue_passed fun q hq => (attempt_of_not_served (hnot q hq)).resolve_right
      (hclear before requestId after rfl hserved hnot q hq)]
    obtain ⟨db', reservation, hok⟩ := hserved
    rcases tryQueue_spec hok with ⟨-, hnone⟩ | ⟨r, hr, out, hout, hattempt⟩
    · cases hnone
    · obtain rfl := List.mem_singleton.mp hr
      rw [tryQueue_served hattempt, tryQueue_served hattempt]

/-- The outcome of a call is that of its queue, or the call never gets to the queue. -/
theorem reserveNext_cases (db : Db) (blockId : String)
    (choose : WorkRequest → Result (Option Selection)) (around : Surroundings)
    (pilot : WorkRequest → Result Unit) (fresh : FreshIds) :
    (∃ block, newestBlock db = some (blockId, block) ∧ ∀ queue,
      reserveNext db blockId choose queue around pilot fresh
        = tryQueue (expireQueued db) choose around pilot fresh queue) ∨
    ∀ queue, ¬ Served (reserveNext db blockId choose queue around pilot fresh) := by
  by_cases hserved : ∃ queue, Served (reserveNext db blockId choose queue around pilot fresh)
  · obtain ⟨queue, db', reservation, hok⟩ := hserved
    rcases reserveNext_spec hok with ⟨-, hnone⟩ | ⟨block, hnewest, hconflict, -⟩
    · cases hnone
    · refine Or.inl ⟨block, hnewest, fun queue' => ?_⟩
      have hopen : ¬ (blocked db around).isSome = true := by
        intro hblocked
        rw [reserveNext, if_pos hblocked] at hok
        obtain ⟨-, hnone⟩ := Prod.mk.inj (Except.ok.inj hok)
        cases hnone
      simp [reserveNext, hopen, hnewest, hconflict, fetch, require, bind, Except.bind]
  · exact Or.inr fun queue hqueue => hserved ⟨queue, hqueue⟩

/-- One bad offer does not block the queue, unless its selection or its reservation fails
with an error that is not caught, ahead of the first request that could be served. -/
theorem one_bad_offer (db : Db) (data : Protocol.SelectionData) (pick : ℕ → List String → String)
    (queue : List Uuid) (around : Surroundings) (pilot : WorkRequest → Result Unit)
    (fresh : FreshIds) :
    let choose (request : WorkRequest) := Protocol.choose data pick request.offer
    let outcome (queue : List Uuid) :=
      reserveNext db data.snapshot.blockId choose queue around pilot fresh
    ServesQueue outcome queue ↔
      ∀ block, newestBlock db = some (data.snapshot.blockId, block) →
        ∀ before requestId after, queue = before ++ requestId :: after →
          Served (outcome [requestId]) → (∀ q ∈ before, ¬ Served (outcome [q])) →
          ∀ q ∈ before, ¬ Obstructs (expireQueued db) choose around pilot fresh q := by
  intro choose outcome
  rcases reserveNext_cases db data.snapshot.blockId choose around pilot fresh with
    ⟨block, hnewest, heq⟩ | hnever
  · have houtcome : outcome
        = tryQueue (expireQueued db) choose around pilot fresh := funext heq
    rw [houtcome, tryQueue_serves_iff]
    constructor
    · intro h block' hnewest'
      obtain ⟨-, rfl⟩ := Prod.mk.inj (Option.some.inj (hnewest.symm.trans hnewest'))
      exact h
    · exact fun h => h block hnewest
  · constructor
    · intro _ block _ before requestId after _ hserved
      exact absurd hserved (hnever _)
    · rintro - ⟨requestId, -, hserved⟩
      exact absurd hserved (hnever _)

end WorkRequests

/-! ### A morning with a bad offer -/

namespace BadOffer

open FirstDay

/-- Two challenges are active.  The algorithm of the CPU challenge has no binary yet. -/
def observation : Json :=
  let algorithm (id challenge : String) : Json := .obj [
    ("block_data", .obj [("adoption", .str "1"), ("num_qualifiers_by_track_by_player", .obj [])]),
    ("details", .obj [("challenge_id", .str challenge), ("name", .str id)]), ("id", .str id),
    ("state", .obj [("banned", .bool false), ("round_active", .int 1)])]
  let challenge (id family : String) : Json := .obj [
    ("block_data", .obj [("num_qualifiers_by_track", .obj [("t", .int 0)])]),
    ("config", .obj [("active_tracks", .obj [("t", .obj [])]), ("base_fee", .str "0"),
      ("max_fuel_budget", .int 1), ("min_num_bundles", .int 1), ("per_nonce_fee", .str "0"),
      ("type", .str family)]),
    ("id", .str id), ("state", .obj [("round_active", .int 1)])]
  let details : Json := .obj [("height", .int 0), ("num_active", .obj [("benchmark", .int 0),
      ("challenge", .int 2), ("code", .int 2), ("opow", .int 0)]),
    ("prev_block_id", .str "genesis"), ("round", .int 1), ("timestamp", .int 0)]
  let data : Json := .obj [("active_ids", .obj [("benchmark", .arr []),
    ("challenge", .arr [.str "c", .str "d"]), ("code", .arr [.str "a", .str "b"]),
    ("opow", .arr [])])]
  .obj [
    ("algorithms", .obj [("binarys", .arr [.obj [("algorithm_id", .str "b"),
        ("details", .obj [("compile_success", .bool true), ("download_url", .str "https://b")]),
        ("state", .obj [("block_confirmed", .int 0)])]]),
      ("codes", .arr [algorithm "a" "c", algorithm "b" "d"])]),
    ("challenges", .obj [("challenges", .arr [challenge "c" "cpu", challenge "d" "gpu"])]),
    ("end", .obj [("block",
      .obj [("config", .obj []), ("details", details), ("id", .str "block-0")])]),
    ("opow", .obj [("opow", .arr [])]), ("players", .obj []),
    ("start", .obj [("block", .obj [("config", .obj []), ("data", data), ("details", details),
      ("id", .str "block-0")])])]

def snapshot : Protocol.Snapshot :=
  (Protocol.validateSnapshot observation).toOption.getD
    ⟨"", "", 0, 0, 0, [], ∅, ∅, ∅, ∅, none, false⟩

def data : Protocol.SelectionData where
  snapshot := snapshot
  binaries := (observation.get? "algorithms").bind (·.get? "binarys")
  playerId := "pool"
  now := 0
  maxAge := 120
  index := some (Protocol.references snapshot)
  referenceMaxAge := 1800

def run : Result Db := do
  let db ← initializeAccounts migrated
  let (db, _) ← registerVerified db wallet "member"
  let db ← setCap db 3600 limits "operator" "start" "cap" "cap"
  let (db, _) ← Deposits.receive db deposit
  let db ← BlockStore.initializeStore db 0
  let db ← BlockStore.record db source (some block) none
  let (db, _) ← WorkRequests.create db "member" "first" "CPU" "aws_t3" capacity 60 "first"
  let (db, _) ← WorkRequests.create db "member" "second" "GPU" "aws_g4dn" capacity 60 "second"
  return db

def morning : Db :=
  run.toOption.getD migrated

def outcome (queue : List Uuid) : Result (Db × Option Uuid) :=
  WorkRequests.reserveNext morning data.snapshot.blockId
    (fun request => Protocol.choose data (fun _ ties => ties.headD "") request.offer) queue around
    (fun _ => .ok ()) ⟨"benchmark", "intent"⟩

/-- The second request would be served alone; behind the first it is not. -/
theorem one_bad_offer_fails : run = .ok morning ∧
    Protocol.validateSnapshot observation = .ok snapshot ∧
    WorkRequests.Served (outcome ["second"]) ∧
    outcome ["first", "second"]
      = .error (.protocolData "active algorithm is missing binary metadata") ∧
    ¬ WorkRequests.ServesQueue outcome ["first", "second"] := by
  have hrun : run = .ok morning := eq_ok_getD (by decide +kernel)
  have hsnapshot : Protocol.validateSnapshot observation = .ok snapshot :=
    eq_ok_getD (by decide +kernel)
  have hserved : WorkRequests.Served (outcome ["second"]) := by
    have hout : (outcome ["second"]).toOption.map (·.2) = some (some "benchmark") := by
      decide +kernel
    cases h : outcome ["second"] with
    | error e =>
        rw [h] at hout
        cases hout
    | ok result =>
        rw [h] at hout
        obtain ⟨db', out⟩ := result
        obtain rfl := Option.some.inj hout
        exact ⟨db', "benchmark", rfl⟩
  have hqueue : outcome ["first", "second"]
      = .error (.protocolData "active algorithm is missing binary metadata") := by
    have herror : (match outcome ["first", "second"] with
        | .error e => some e
        | .ok _ => none)
          = some (.protocolData "active algorithm is missing binary metadata") := by
      decide +kernel
    cases h : outcome ["first", "second"] with
    | error e =>
        rw [h] at herror
        rw [Option.some.inj herror]
    | ok result =>
        rw [h] at herror
        cases herror
  refine ⟨hrun, hsnapshot, hserved, hqueue, fun hserves => ?_⟩
  obtain ⟨requestId, -, ⟨db', reservation, hok⟩, heq⟩ :=
    hserves ⟨"second", List.mem_cons_of_mem _ (List.mem_cons_self ..), hserved⟩
  rw [hqueue, hok] at heq
  cases heq

end BadOffer

end TigPool
