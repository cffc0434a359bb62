/-
# `TigPool.PilotLimits` — a pilot stays within its limits

A run of the service with a pilot installed: every reservation and every first send asks
`check` in its own transaction, every other transaction is as it always was, and phases are
extended in between.  What a step does to the pilot's account is one of four things
(`Effect`), and the limits are kept through each of them.

What counts is what was sent: the reservation, the wallet of its member and its fee
ceiling.  None of these ever changes, so the account of what was sent only grows.
-/
import TigPool.Pilot

namespace TigPool

open Basis

/-! ## What was sent -/

namespace Db

variable {db db' : Db}

/-- Every reservation belongs to a member on record. -/
def Owned (db : Db) : Prop :=
  ∀ {id r}, db.funds.reservations.lookup id = some r → r.memberId ∈ db.funds.members

/-- Whose a reservation is and what its fee may be. -/
def termsOf (db : Db) (id : Uuid) : Option (Address × ℕ) :=
  (db.funds.reservations.lookup id).bind fun r =>
    (db.funds.members.lookup r.memberId).map fun member => (member.wallet, r.feeLimit)

theorem termsOf_eq {id : Uuid} {r : Reservation} {member : Member}
    (hr : db.funds.reservations.lookup id = some r)
    (hmember : db.funds.members.lookup r.memberId = some member) :
    db.termsOf id = some (member.wallet, r.feeLimit) := by
  rw [termsOf, hr, Option.bind_some, hmember]
  rfl

/-- The account of what was sent. -/
def sends (db : Db) : List (Uuid × Address × ℕ) :=
  (Pilot.sent db).map fun row => (row.1, row.2.2, row.2.1.feeLimit)

theorem mem_sent {x : Uuid × Reservation × Address} : x ∈ Pilot.sent db ↔
    (x.1, .potentiallySent) ∈ db.work.reservationEvents ∧
      db.funds.reservations.lookup x.1 = some x.2.1 ∧
      (db.funds.members.lookup x.2.1.memberId).map (·.wallet) = some x.2.2 := by
  obtain ⟨id, r, wallet⟩ := x
  simp only [Pilot.sent, List.mem_filterMap]
  constructor
  · rintro ⟨⟨id', kind⟩, hkey, h⟩
    split at h
    next hkind =>
      obtain ⟨r', hr', h⟩ := Option.bind_eq_some_iff.mp h
      obtain ⟨member, hmember, h⟩ := Option.map_eq_some_iff.mp h
      obtain ⟨rfl, rfl, rfl⟩ : id' = id ∧ r' = r ∧ member.wallet = wallet := by simpa using h
      obtain rfl : kind = .potentiallySent := hkind
      exact ⟨AList.mem_keys.mp hkey, hr', by rw [hmember]; rfl⟩
    next => cases h
  · rintro ⟨hkey, hr, hwallet⟩
    obtain ⟨member, hmember, hwallet⟩ := Option.map_eq_some_iff.mp hwallet
    obtain rfl : member.wallet = wallet := hwallet
    have hmember : db.funds.members.lookup r.memberId = some member := hmember
    refine ⟨(id, .potentiallySent), AList.mem_keys.mpr hkey, ?_⟩
    simp [hr, hmember]

theorem mem_sends {x : Uuid × Address × ℕ} : x ∈ db.sends ↔
    (x.1, .potentiallySent) ∈ db.work.reservationEvents ∧ db.termsOf x.1 = some x.2 := by
  obtain ⟨id, wallet, fee⟩ := x
  simp only [sends, List.mem_map, termsOf, Option.bind_eq_some_iff, Option.map_eq_some_iff]
  constructor
  · rintro ⟨row, hrow, heq⟩
    obtain ⟨hsent, hr, hwallet⟩ := mem_sent.mp hrow
    obtain ⟨member, hmember, hwallet⟩ := Option.map_eq_some_iff.mp hwallet
    obtain ⟨rfl, rfl, rfl⟩ : row.1 = id ∧ row.2.2 = wallet ∧ row.2.1.feeLimit = fee := by
      simpa using heq
    exact ⟨hsent, row.2.1, hr, member, hmember, by rw [hwallet]⟩
  · rintro ⟨hsent, r, hr, member, hmember, heq⟩
    obtain ⟨rfl, rfl⟩ := Prod.mk.inj heq
    exact ⟨(id, r, member.wallet), mem_sent.mpr ⟨hsent, hr, by rw [hmember]; rfl⟩, rfl⟩

/-- Nothing is sent twice. -/
theorem sends_keys_nodup : (db.sends.map (·.1)).Nodup := by
  have hkeys : db.sends.map (·.1) = (Pilot.sent db).map (·.1) := by
    rw [sends, List.map_map]
    rfl
  rw [hkeys, Pilot.sent, List.map_filterMap]
  refine db.work.reservationEvents.keys_nodup.filterMap ?_
  rintro ⟨id, kind⟩ ⟨id', kind'⟩ out h h'
  obtain ⟨x, hx, rfl⟩ := Option.map_eq_some_iff.mp (Option.mem_def.mp h)
  obtain ⟨x', hx', heq⟩ := Option.map_eq_some_iff.mp (Option.mem_def.mp h')
  split at hx
  next hkind =>
    split at hx'
    next hkind' =>
      obtain ⟨r, -, hx⟩ := Option.bind_eq_some_iff.mp hx
      obtain ⟨member, -, rfl⟩ := Option.map_eq_some_iff.mp hx
      obtain ⟨r', -, hx'⟩ := Option.bind_eq_some_iff.mp hx'
      obtain ⟨member', -, rfl⟩ := Option.map_eq_some_iff.mp hx'
      exact Prod.ext heq.symm (hkind.trans hkind'.symm)
    next => cases hx'
  next => cases hx

theorem sends_nodup : db.sends.Nodup :=
  .of_map _ sends_keys_nodup

/-- What was sent has its terms. -/
theorem Timely.terms (ht : db.Timely) (ho : db.Owned) {id : Uuid}
    (h : (id, .potentiallySent) ∈ db.work.reservationEvents) :
    ∃ terms, db.termsOf id = some terms := by
  obtain ⟨e, he⟩ := Option.isSome_iff_exists.mp (AList.lookup_isSome.mpr h)
  obtain ⟨-, r, hr, -⟩ := ht.sent he
  obtain ⟨member, hmember⟩ := Option.isSome_iff_exists.mp (AList.lookup_isSome.mpr (ho hr))
  exact ⟨_, termsOf_eq hr hmember⟩

theorem Keeps.mem_events {id : Uuid} (h : db.Keeps db' id) :
    (id, .potentiallySent) ∈ db'.work.reservationEvents ↔
      (id, .potentiallySent) ∈ db.work.reservationEvents := by
  rw [← AList.lookup_isSome, ← AList.lookup_isSome, h.1]

/-- Where nothing is sent, the account stays. -/
theorem sends_keeps (ht : db.Timely) (ho : db.Owned)
    (hterms : ∀ id terms, db.termsOf id = some terms → db'.termsOf id = some terms)
    (hkeeps : ∀ id, db.Keeps db' id) : db'.sends.Perm db.sends := by
  refine (List.perm_ext_iff_of_nodup sends_nodup sends_nodup).mpr fun x => ?_
  rw [mem_sends, mem_sends, (hkeeps x.1).mem_events]
  refine and_congr_right fun hsent => ?_
  obtain ⟨terms, hold⟩ := ht.terms ho hsent
  rw [hold, hterms _ _ hold]

/-- A send is added to it. -/
theorem sends_authorises (ht : db.Timely) (ho : db.Owned)
    (hterms : ∀ id terms, db.termsOf id = some terms → db'.termsOf id = some terms)
    {id : Uuid} {terms : Address × ℕ} (hid : db.termsOf id = some terms)
    (hauthorises : db.Authorises db' id) (hkeeps : ∀ other ≠ id, db.Keeps db' other) :
    db'.sends.Perm ((id, terms) :: db.sends) := by
  obtain ⟨r, u, details, hr, hstate, -, -, hevents, -⟩ := hauthorises
  -- Pending work was not sent.
  have hfresh : (id, .potentiallySent) ∉ db.work.reservationEvents := by
    intro hmem
    obtain ⟨e, he⟩ := Option.isSome_iff_exists.mp (AList.lookup_isSome.mpr hmem)
    obtain ⟨-, r', hr', hnot⟩ := ht.sent he
    obtain rfl := Option.some.inj (hr.symm.trans hr')
    exact hnot hstate
  have hnodup : ((id, terms) :: db.sends).Nodup :=
    List.nodup_cons.mpr ⟨fun hmem => hfresh (mem_sends.mp hmem).1, sends_nodup⟩
  refine (List.perm_ext_iff_of_nodup sends_nodup hnodup).mpr fun x => ?_
  rw [mem_sends, List.mem_cons, mem_sends]
  by_cases hx : x.1 = id
  · have hnow : (x.1, .potentiallySent) ∈ db'.work.reservationEvents := by
      rw [hevents, hx]
      exact (AList.mem_insert _).mpr (.inl rfl)
    rw [hx] at hnow ⊢
    rw [hterms _ _ hid]
    constructor
    · rintro ⟨-, heq⟩
      exact .inl (Prod.ext hx (Option.some.inj heq).symm)
    · rintro (rfl | ⟨hsent, -⟩)
      · exact ⟨hnow, rfl⟩
      · exact absurd hsent hfresh
  · rw [(hkeeps _ hx).mem_events]
    constructor
    · rintro ⟨hsent, heq⟩
      obtain ⟨old, hold⟩ := ht.terms ho hsent
      rw [hterms _ _ hold] at heq
      exact .inr ⟨hsent, hold.trans heq⟩
    · rintro (rfl | ⟨hsent, heq⟩)
      · exact absurd rfl hx
      · exact ⟨hsent, hterms _ _ heq⟩

end Db

/-! ## What a step of the service does -/

namespace Funds

variable {f f' : Funds} {c : Change} {L : Change → Prop}

/-- The wallet of a member stays. -/
theorem Path.wallet (h : Path L f f') {m : Uuid} {row : Member}
    (hrow : f.members.lookup m = some row) :
    ∃ row', f'.members.lookup m = some row' ∧ row'.wallet = row.wallet := by
  induction h with
  | refl => exact ⟨row, hrow, rfl⟩
  | step hpath hc hs ih =>
      obtain ⟨row₁, hrow₁, heq⟩ := ih
      have hmember := hs.member m
      rw [hrow₁] at hmember
      generalize AList.lookup m _ = after at hmember ⊢
      cases hmember with
      | same => exact ⟨row₁, rfl, heq⟩
      | turned hturn =>
          refine ⟨_, rfl, ?_⟩
          rw [← heq]
          cases hturn <;> rfl

theorem Step.owned (hl : f.LawfulRows) (h : Step f c f')
    (ho : ∀ {id r}, f.reservations.lookup id = some r → r.memberId ∈ f.members) {id : Uuid}
    {r : Reservation} (hr : f'.reservations.lookup id = some r) : r.memberId ∈ f'.members := by
  rcases h.reservation_back hl hr with ⟨r₀, hr₀, hx⟩ | hc
  · rw [hx.memberId]
    exact h.mem_members (ho hr₀)
  · cases h with
    | reserved _ _ hmember =>
        obtain ⟨-, hid, -⟩ : _ ∧ _ ∧ _ := by simpa using hc
        rw [← hid]
        exact AList.lookup_isSome.mp (by rw [hmember]; rfl)
    | _ => cases hc

theorem Path.owned (h : Path L f f') (hf : f.Lawful)
    (ho : ∀ {id r}, f.reservations.lookup id = some r → r.memberId ∈ f.members) {id : Uuid}
    {r : Reservation} (hr : f'.reservations.lookup id = some r) : r.memberId ∈ f'.members := by
  induction h generalizing id r with
  | refl => exact ho hr
  | step hpath hc hs ih =>
      exact hs.owned (Funds.Path.lawful hpath hf).rows (fun hr₁ => ih hr₁) hr

end Funds

/-- Transactions that ask the pilot. -/
def Action.asks : Action → Bool
  | .funds (.reserve ..) | .funds (.markSubmitting _) => true
  | .work (.reserveNext _) | .work (.begin _) => true
  | _ => false

namespace Sys

variable {s s' : Sys} {a : Action}

theorem Step.keeps_unasked (hs : s.Lawful) (h : Step s a s') (ha : a.asks = false) (id : Uuid) :
    s.db.Keeps s'.db id := by
  by_cases hprog : a.does s.db (.progressed id)
  · cases h with
    | funds h =>
        cases h with
        | acknowledge h => exact acknowledge_keeps h id
        | recordOutcome h => exact recordOutcome_keeps h id
        | markSubmitting => cases ha
        | _ => simp [Action.does, FundsAction.does, Change.Quiet] at hprog
    | work h =>
        cases h with
        | expireUnsentResults h => exact expireUnsentResults_keeps h id
        | expireRejectedResults h => exact expireRejectedResults_keeps h id
        | begin => cases ha
        | _ => simp [Action.does, WorkAction.does, Change.Quiet] at hprog
    | _ => simp [Action.does, Change.Quiet] at hprog
  · exact h.keeps hs hprog

theorem Step.old_unasked (hs : s.Lawful) (h : Step s a s') (ha : a.asks = false) {id : Uuid}
    {r' : Reservation} (hr' : s'.db.funds.reservations.lookup id = some r') :
    id ∈ s.db.funds.reservations := by
  rcases Funds.Path.reservation_back (h.path hs) hs.funds hr' with ⟨r, hr, -⟩ | ⟨m, n, hdoes⟩
  · exact AList.lookup_isSome.mp (by rw [hr]; rfl)
  · cases h with
    | funds h =>
        cases h with
        | reserve => cases ha
        | _ => simp [Action.does, FundsAction.does, Change.Quiet] at hdoes
    | work h =>
        cases h with
        | reserveNext => cases ha
        | _ => simp [Action.does, WorkAction.does, Change.Quiet] at hdoes
    | _ => simp [Action.does, Change.Quiet] at hdoes

/-- Terms stay. -/
theorem Step.terms (hs : s.Lawful) (h : Step s a s') {id : Uuid} {terms : Address × ℕ}
    (hterms : s.db.termsOf id = some terms) : s'.db.termsOf id = some terms := by
  obtain ⟨r, hr, hterms⟩ := Option.bind_eq_some_iff.mp hterms
  obtain ⟨member, hmember, rfl⟩ := Option.map_eq_some_iff.mp hterms
  obtain ⟨r', hr', hx⟩ := (h.extends hs).reservation hr
  obtain ⟨member', hmember', hwallet⟩ := Funds.Path.wallet (h.path hs) hmember
  rw [Db.termsOf, hr', Option.bind_some, hx.memberId, hmember', Option.map_some, hwallet,
    hx.feeLimit]

theorem Step.owned (hs : s.Lawful) (h : Step s a s') (ho : s.db.Owned) : s'.db.Owned :=
  fun hr => Funds.Path.owned (h.path hs) hs.funds ho hr

/-- What is decided stays decided. -/
theorem Step.decided (hs : s.Lawful) (h : Step s a s') {id : Uuid} {r : Reservation}
    (hr : s.db.funds.reservations.lookup id = some r)
    (hdecided : Pilot.isOutstanding r.state = false) :
    ∃ r', s'.db.funds.reservations.lookup id = some r' ∧ Pilot.isOutstanding r'.state = false := by
  refine Funds.Path.states (P := fun state => Pilot.isOutstanding state = false) (h.path hs) hr
    hdecided ?_
  rintro c before after - hbefore hshift
  cases c with
  | progressed i =>
      obtain ⟨-, ⟨rfl, -⟩ | ⟨rfl, -⟩⟩ := hshift <;> cases hbefore
  | accepted i =>
      obtain ⟨-, rfl, -⟩ := hshift
      cases hbefore
  | unstarted i m =>
      obtain ⟨-, ⟨rfl, -⟩ | ⟨rfl, -⟩⟩ := hshift <;> cases hbefore
  | unhanded i m =>
      obtain ⟨-, rfl, -⟩ := hshift
      cases hbefore
  | _ => exact hshift.elim

end Sys

/-! ## Who asks -/

section

variable {db db' : Db} {around : Surroundings}

theorem reserve_asked {memberId identity out : Uuid} {requestKey : String} {creationRound : ℤ}
    {resource : Resource} {selection payload : Json} {feeLimit : ℤ} {offerExpiresAt : Time}
    (h : reserve db memberId requestKey creationRound resource selection payload feeLimit
      offerExpiresAt around identity = .ok (db', out)) : db' = db ∨ around.pilot = .ok () := by
  simp only [reserve, bind_eq_ok, require_eq_ok, exists_const] at h
  obtain ⟨-, _, -, _, -, _, -, _, -, h⟩ := h
  split at h
  next =>
    simp only [bind_eq_ok, require_eq_ok, exists_const, pure_eq_ok, Prod.mk.injEq] at h
    exact .inl h.2.1.symm
  next =>
    simp only [bind_eq_ok, require_eq_ok, exists_const] at h
    obtain ⟨-, -, -, _, -, _, hpilot, -⟩ := h
    exact .inr hpilot

theorem markSubmitting_asked {identity : Uuid} {out : Json}
    (h : markSubmitting db identity around = .ok (db', out)) : around.pilot = .ok () := by
  simp only [markSubmitting, bind_eq_ok, require_eq_ok, exists_const] at h
  obtain ⟨_, -, -, -, _, -, _, hpilot, -⟩ := h
  exact hpilot

/-- A check at a reservation was made for some collateral. -/
theorem Pilot.atReserve_spec {pilot : Pilot} {observed : Bool} {memberId : Uuid}
    {resource : Resource} {payload : Json} {feeLimit : ℤ}
    (h : pilot.atReserve db observed memberId resource payload feeLimit = .ok ()) :
    ∃ wallet amount,
      pilot.check db observed wallet resource amount feeLimit payload none = .ok () := by
  simp only [Pilot.atReserve, bind_eq_ok] at h
  obtain ⟨member, -, counts, -, amounts, -, h⟩ := h
  exact ⟨_, _, h⟩

theorem Pilot.atSend_spec {pilot : Pilot} {observed : Bool} {identity : Uuid}
    (h : pilot.atSend db observed identity = .ok ()) :
    ∃ row member, db.funds.reservations.lookup identity = some row ∧
      db.funds.members.lookup row.memberId = some member ∧
      pilot.check db observed member.wallet row.resource row.amount row.feeLimit row.payload
        (some identity) = .ok () := by
  simp only [Pilot.atSend, lockedReservation, memberLock, bind_eq_ok, fetch_eq_ok] at h
  obtain ⟨row, hrow, member, hmember, h⟩ := h
  exact ⟨row, member, hrow, hmember, h⟩

end

/-! ## Runs -/

/-- The service with a pilot installed. -/
structure Piloted where
  sys : Sys
  pilot : Pilot

namespace Piloted

/-- One committed transaction. -/
inductive Step : Piloted → Piloted → Prop
  | extend {sys : Sys} {pilot pilot' : Pilot} {value : Json} {expectedPhase : ℤ}
      {actor reason : String} {row : Pilot.Phase} :
      pilot.extend sys.db value expectedPhase actor reason = .ok (pilot', row) →
      Step ⟨sys, pilot⟩ ⟨sys, pilot'⟩
  | reserve {db db' : Db} {held : Held} {pilot : Pilot} {observed : Bool}
      {member identity out : Uuid} {key : String} {round : ℤ} {resource : Resource}
      {selection payload : Json} {feeLimit : ℤ} {expiresAt : Time} {around : Surroundings} :
      TigPool.reserve db member key round resource selection payload feeLimit expiresAt
        { around with pilot := pilot.atReserve db observed member resource payload feeLimit }
        identity = .ok (db', out) →
      Step ⟨⟨db, held⟩, pilot⟩ ⟨⟨db', held⟩, pilot⟩
  | markSubmitting {db db' : Db} {held : Held} {pilot : Pilot} {observed : Bool} {identity : Uuid}
      {around : Surroundings} {out : Json} :
      TigPool.markSubmitting db identity
        { around with pilot := pilot.atSend db observed identity } = .ok (db', out) →
      Step ⟨⟨db, held⟩, pilot⟩ ⟨⟨db', held⟩, pilot⟩
  | reserveNext {db db' : Db} {held : Held} {pilot : Pilot} {observed : Bool} {blockId : String}
      {choose : WorkRequest → Result (Option WorkRequests.Selection)} {queue : List Uuid}
      {around : Surroundings} {asked : WorkRequest → Result Unit} {fresh : WorkRequests.FreshIds}
      {out : Option Uuid} : WorkRequests.Chooses db blockId choose →
      (∀ request selection, choose request = .ok (some selection) → asked request =
        pilot.atReserve (WorkRequests.expireQueued db) observed request.memberId
          request.offer.resource selection.payload selection.maxSubmissionFee) →
      WorkRequests.reserveNext db blockId choose queue around asked fresh = .ok (db', out) →
      Step ⟨⟨db, held⟩, pilot⟩ ⟨⟨db', held⟩, pilot⟩
  | begin {db db' : Db} {held : Held} {pilot : Pilot} {observed : Bool} {identity : Uuid}
      {preflight : Option Preflight} {around : Surroundings} {out : ProtocolIntent} :
      Submissions.begin db identity preflight { around with
        pilot := (db.work.protocolOutbox.lookup identity).elim (.ok ()) fun intent =>
          pilot.atSend db observed intent.reservationId } = .ok (db', out) →
      Step ⟨⟨db, held⟩, pilot⟩ ⟨⟨db', held⟩, pilot⟩
  | other {sys sys' : Sys} {pilot : Pilot} {a : Action} : Sys.Step sys a sys' →
      a.asks = false → Step ⟨sys, pilot⟩ ⟨sys', pilot⟩

/-- The states after a pilot was installed. -/
inductive Reachable : Piloted → Prop
  | installed {sys : Sys} {config : Json} {actor : String} {pilot : Pilot} :
      Sys.Reachable Sys.Any sys → Pilot.install sys.db none config actor = .ok pilot →
      Reachable ⟨sys, pilot⟩
  | step {s s' : Piloted} : Reachable s → Step s s' → Reachable s'

variable {s s' : Piloted}

/-- Without its pilot, a step is one of the service, or nothing. -/
theorem Step.service (h : Step s s') : s'.sys = s.sys ∨ ∃ a, Sys.Step s.sys a s'.sys := by
  cases h with
  | extend => exact .inl rfl
  | reserve h => exact .inr ⟨_, .funds (.reserve h)⟩
  | markSubmitting h => exact .inr ⟨_, .funds (.markSubmitting h)⟩
  | reserveNext hchooses _ h => exact .inr ⟨_, .work (.reserveNext hchooses h)⟩
  | begin h => exact .inr ⟨_, .work (.begin h)⟩
  | other h => exact .inr ⟨_, h⟩

theorem Reachable.sys (h : Reachable s) : Sys.Reachable Sys.Any s.sys := by
  induction h with
  | installed hsys _ => exact hsys
  | step _ hs ih =>
      rcases hs.service with heq | ⟨a, hstep⟩
      · rw [heq]
        exact ih
      · exact ih.step trivial hstep

/-- What a step does to the pilot's account. -/
inductive Effect (s s' : Piloted) : Prop
  | quiet : s'.pilot = s.pilot → (∀ id, s.sys.db.Keeps s'.sys.db id) →
      (∀ {id r'}, s'.sys.db.funds.reservations.lookup id = some r' →
        id ∈ s.sys.db.funds.reservations) → Effect s s'
  | reserved {id : Uuid} {observed : Bool} {wallet : Address} {resource : Resource} {amount : ℕ}
      {feeLimit : ℤ} {payload : Json} : s'.pilot = s.pilot →
      (∀ id, s.sys.db.Keeps s'.sys.db id) →
      (∀ {other r'}, s'.sys.db.funds.reservations.lookup other = some r' → other ≠ id →
        other ∈ s.sys.db.funds.reservations) →
      s.pilot.check s.sys.db observed wallet resource amount feeLimit payload none = .ok () →
      Effect s s'
  | sent {id : Uuid} {observed : Bool} {r : Reservation} {member : Member} : s'.pilot = s.pilot →
      s.sys.db.Authorises s'.sys.db id → (∀ other ≠ id, s.sys.db.Keeps s'.sys.db other) →
      (∀ {id r'}, s'.sys.db.funds.reservations.lookup id = some r' →
        id ∈ s.sys.db.funds.reservations) →
      s.sys.db.funds.reservations.lookup id = some r →
      s.sys.db.funds.members.lookup r.memberId = some member →
      s.pilot.check s.sys.db observed member.wallet r.resource r.amount r.feeLimit r.payload
        (some id) = .ok () → Effect s s'
  | extended {value : Json} {expectedPhase : ℤ} {actor reason : String} {row : Pilot.Phase} :
      s'.sys = s.sys →
      s.pilot.extend s.sys.db value expectedPhase actor reason = .ok (s'.pilot, row) → Effect s s'

/-- Marking work as sent, whatever else the transaction writes beside it. -/
theorem markSubmitting_effect {db db₁ : Db} {pilot : Pilot} {held held' : Held} {observed : Bool}
    {identity : Uuid} {around : Surroundings} {out : Json} (ht : db.Timely)
    (hask : around.pilot = pilot.atSend db observed identity)
    (h : TigPool.markSubmitting db identity around = .ok (db₁, out)) {db' : Db}
    (hfunds : db'.funds = db₁.funds)
    (hevents : db'.work.reservationEvents = db₁.work.reservationEvents)
    (hclock : db'.clock = db₁.clock) : Effect ⟨⟨db, held⟩, pilot⟩ ⟨⟨db', held'⟩, pilot⟩ := by
  have hpilot := markSubmitting_asked h
  rw [hask] at hpilot
  obtain ⟨r, member, hr, hmember, hcheck⟩ := Pilot.atSend_spec hpilot
  obtain ⟨row, u, events, hrow, hstate, -, hcap, hrecord, hrecorded, rfl⟩ := markSubmitting_spec h
  obtain rfl := Option.some.inj (hr.symm.trans hrow)
  rcases hrecord with rfl | ⟨details, rfl⟩
  · -- Pending work has no event of being sent.
    obtain ⟨e, he⟩ := Option.isSome_iff_exists.mp (AList.lookup_isSome.mpr hrecorded)
    obtain ⟨-, r', hr', hnot⟩ := ht.sent he
    obtain rfl := Option.some.inj (hr.symm.trans hr')
    exact absurd hstate hnot
  · refine .sent rfl ⟨r, u, details, hr, hstate, hcap, by rw [hfunds], hevents, hclock⟩
      (fun other hne => .of_eq ?_ ?_) (fun hr' => ?_) hr hmember hcheck
    · change db'.funds.reservations.lookup other = _
      rw [hfunds]
      exact AList.lookup_insert_ne hne
    · change db'.work.reservationEvents.lookup (other, .potentiallySent) = _
      rw [hevents]
      exact AList.lookup_insert_ne fun heq => hne (Prod.mk.inj heq).1
    · change db'.funds.reservations.lookup _ = _ at hr'
      rw [hfunds] at hr'
      rcases Table.lookup_insert_cases hr' with ⟨rfl, -⟩ | ⟨-, hold⟩
      · exact AList.lookup_isSome.mp (by rw [hr]; rfl)
      · exact AList.lookup_isSome.mp (by rw [hold]; rfl)

/-- Reserving work, whatever else the transaction writes before and beside it. -/
theorem reserve_effect {db db₀ db₁ db' : Db} {pilot : Pilot} {held held' : Held} {observed : Bool}
    {memberId identity out : Uuid} {key : String} {round : ℤ} {resource : Resource}
    {selection payload : Json} {feeLimit : ℤ} {expiresAt : Time} {around : Surroundings}
    (hask : around.pilot = pilot.atReserve db₀ observed memberId resource payload feeLimit)
    (h : TigPool.reserve db₀ memberId key round resource selection payload feeLimit expiresAt around
      identity = .ok (db₁, out)) (hbefore : db₀.funds = db.funds)
    (hsame : ∀ wallet amount, pilot.check db₀ observed wallet resource amount feeLimit payload none
      = pilot.check db observed wallet resource amount feeLimit payload none)
    (hfunds : db'.funds = db₁.funds) (hkeeps : ∀ id, db.Keeps db' id) :
    Effect ⟨⟨db, held⟩, pilot⟩ ⟨⟨db', held'⟩, pilot⟩ := by
  rcases reserve_asked h with rfl | hpilot
  · refine .quiet rfl hkeeps fun hr' => ?_
    change db'.funds.reservations.lookup _ = _ at hr'
    rw [hfunds, hbefore] at hr'
    exact AList.lookup_isSome.mp (by rw [hr']; rfl)
  · rw [hask] at hpilot
    obtain ⟨wallet, amount, hcheck⟩ := Pilot.atReserve_spec hpilot
    rw [hsame] at hcheck
    refine @Effect.reserved _ _ identity _ _ _ _ _ _ rfl hkeeps (fun {other r'} hr' hne => ?_)
      hcheck
    change db'.funds.reservations.lookup _ = _ at hr'
    rw [hfunds] at hr'
    change other ∈ db.funds.reservations
    rw [← hbefore]
    rcases reserve_spec h with ⟨rfl, -⟩ | ⟨row, _, _, rfl, -⟩
    · exact AList.lookup_isSome.mp (by rw [hr']; rfl)
    · rcases Table.lookup_insert_cases hr' with ⟨rfl, -⟩ | ⟨-, hold⟩
      · exact absurd rfl hne
      · exact AList.lookup_isSome.mp (by rw [hold]; rfl)

theorem Step.effect (hs : s.Reachable) (h : Step s s') : Effect s s' := by
  have hlawful := hs.sys.lawful
  have htimely := hs.sys.timely
  cases h with
  | extend h => exact .extended rfl h
  | reserve h =>
      refine reserve_effect rfl h rfl (fun _ _ => rfl) rfl fun id => ?_
      exact (Sys.Step.funds (.reserve h)).keeps hlawful
        (by simp [Action.does, FundsAction.does, Change.Quiet])
  | markSubmitting h => exact markSubmitting_effect htimely rfl h rfl rfl rfl
  | @reserveNext db db' held pilot observed blockId choose queue around asked fresh out hchooses
      hask h =>
      have hkeeps : ∀ id, db.Keeps db' id := fun id =>
        (@Sys.Step.work db db' held _ (.reserveNext hchooses h)).keeps hlawful
          (by simp [Action.does, WorkAction.does, Change.Quiet])
      have hquiet : db'.funds = db.funds → Effect ⟨⟨db, held⟩, pilot⟩ ⟨⟨db', held⟩, pilot⟩ := by
        intro hfunds
        refine .quiet rfl hkeeps fun hr' => ?_
        change db'.funds.reservations.lookup _ = _ at hr'
        rw [hfunds] at hr'
        exact AList.lookup_isSome.mp (by rw [hr']; rfl)
      rcases WorkRequests.reserveNext_spec h with ⟨rfl, -⟩ | ⟨block, -, -, hqueue⟩
      · exact hquiet rfl
      rcases WorkRequests.tryQueue_spec hqueue with ⟨rfl, -⟩ | ⟨_, -, _, -, hattempt⟩
      · exact hquiet rfl
      obtain ⟨request, selection, -, -, hchoice, htry⟩ := WorkRequests.attempt_spec hattempt
      obtain ⟨reserved, hreserve, hhand⟩ := WorkRequests.tryReserve_spec htry
      simp only [WorkRequests.handOver, bind_eq_ok, pure_eq_ok] at hhand
      obtain ⟨db₁, henqueue, rfl⟩ := hhand
      have hfunds := WorkRequests.enqueue_funds henqueue
      exact reserve_effect (hask request selection hchoice) hreserve rfl (fun _ _ => rfl) hfunds
        hkeeps
  | @begin db db' held pilot observed identity preflight around out h =>
      obtain ⟨row, intent, hlocked, -, ⟨-, found, u, db₁, payload, -, -, hmark, rfl⟩ |
        ⟨-, -, -, -, rfl⟩⟩ := Submissions.begin_spec h
      · have hintent : db.work.protocolOutbox.lookup identity = some intent :=
          (Submissions.locked_spec hlocked).1
        have hask : ((db.work.protocolOutbox.lookup identity).elim (.ok ()) fun intent =>
            pilot.atSend db observed intent.reservationId)
              = pilot.atSend db observed intent.reservationId := by
          rw [hintent]
          rfl
        exact markSubmitting_effect htimely hask hmark rfl rfl rfl
      · exact .quiet rfl (fun _ => .of_eq rfl rfl) fun hr' =>
          AList.lookup_isSome.mp (Option.isSome_of_eq_some hr')
  | other h hunasked =>
      refine .quiet rfl (h.keeps_unasked hlawful hunasked) fun hr' => ?_
      exact h.old_unasked hlawful hunasked hr'

end Piloted

/-! ## What the checks say -/

namespace Pilot

/-- How often the work of a wallet's member may be sent. -/
def allowance (members : List Allowance) (wallet : Address) : ℕ :=
  (members.find? (·.wallet = wallet)).elim 0 (·.attemptLimit)

variable {pilot pilot' : Pilot} {db : Db} {observed : Bool} {wallet : Address}
  {resource : Resource} {amount : ℕ} {feeLimit : ℤ} {payload : Json} {reservation : Option Uuid}

theorem sent_length : (sent db).length = db.sends.length := by
  rw [Db.sends, List.length_map]

theorem sentBy_sends : sentBy (sent db) wallet = db.sends.countP fun x => x.2.1 = wallet := by
  rw [Db.sends, List.countP_map]
  rfl

theorem sentFees_sends : sentFees (sent db) = (db.sends.map (·.2.2)).sum := by
  rw [Db.sends, List.map_map]
  rfl

/-- What a passed check has found. -/
structure Passes (pilot : Pilot) (db : Db) (wallet : Address) (feeLimit : ℤ)
    (reservation : Option Uuid) : Prop where
  fee : 0 ≤ feeLimit ∧ feeLimit ≤ pilot.config.maxFeePerAttemptUnits
  count : db.sends.length < pilot.phase.2.attemptLimit
  active : ∀ row ∈ sent db, row.2.1.state = .active
  turn : ∃ expected, Pilot.turn pilot.phase.1 pilot.phase.2.members (sent db) wallet = .ok expected
  one : ∀ {id r}, db.funds.reservations.lookup id = some r → r.state = .reserved →
    some id = reservation
  budget : planned pilot.phase.2.members + (db.sends.map (·.2.2)).sum + feeLimit
    ≤ pilot.config.maximumTotalTigUnits

theorem check_spec
    (h : pilot.check db observed wallet resource amount feeLimit payload reservation = .ok ()) :
    pilot.Passes db wallet feeLimit reservation := by
  simp only [check, bind_eq_ok, require_eq_ok, exists_const] at h
  obtain ⟨-, -, hfee, hcount, hactive, expected, hturn, -, hone, hbudget, -⟩ := h
  refine ⟨hfee, by rwa [← sent_length], hactive, ⟨expected, hturn⟩, fun {id r} hr hstate => ?_, ?_⟩
  · by_contra hne
    have hany := Table.any_eq_false.mp hone id r hr
    simp [hstate, hne] at hany
  · rw [← sentFees_sends]
    exact hbudget

/-- The member whose turn it is has an attempt left. -/
theorem turn_spec {number : ℕ} {members : List Allowance}
    {rows : List (Uuid × Reservation × Address)} {expected : Allowance}
    (hfirst : number = 0 → ∀ a ∈ members, a.attemptLimit = 1)
    (h : Pilot.turn number members rows wallet = .ok expected) :
    sentBy rows wallet < allowance members wallet := by
  unfold Pilot.turn at h
  split at h
  next hnumber =>
    simp only [bind_eq_ok, require_eq_ok, exists_const, fetch_eq_ok, pure_eq_ok] at h
    obtain ⟨expected, hexpected, ⟨rfl, hnone⟩, rfl⟩ := h
    have hmem := List.mem_of_getElem? hexpected
    cases hfind : members.find? (·.wallet = expected.wallet) with
    | none => exact absurd (List.find?_eq_none.mp hfind expected hmem) (by simp)
    | some found =>
        rw [allowance, hfind, Option.elim_some, hnone,
          hfirst hnumber found (List.mem_of_find?_eq_some hfind)]
        exact Nat.one_pos
  next =>
    simp only [bind_eq_ok, require_eq_ok, exists_const, fetch_eq_ok, pure_eq_ok] at h
    obtain ⟨expected, hfind, hlt, -⟩ := h
    rw [allowance, hfind]
    exact hlt

/-- Each member keeps its place, and may do at least as much as before. -/
def Raises (before after : List Allowance) : Prop :=
  List.Forall₂ (fun a b => a.wallet = b.wallet ∧ a.fundingUnits ≤ b.fundingUnits ∧
    a.attemptLimit ≤ b.attemptLimit) before after

theorem Raises.refl (members : List Allowance) : Raises members members :=
  List.forall₂_same.mpr fun _ _ => ⟨rfl, le_rfl, le_rfl⟩

theorem Raises.allowance {before after : List Allowance} (h : Raises before after)
    (wallet : Address) : allowance before wallet ≤ allowance after wallet := by
  induction h with
  | nil => exact le_rfl
  | @cons a b before after hab _ ih =>
      obtain ⟨hwallet, -, hlimit⟩ := hab
      unfold Pilot.allowance at ih ⊢
      rw [List.find?_cons, List.find?_cons, hwallet]
      cases decide (b.wallet = wallet) with
      | true => exact hlimit
      | false => exact ih

theorem Raises.total {before after : List Allowance} (h : Raises before after) :
    total before ≤ total after := by
  induction h with
  | nil => exact le_rfl
  | cons hab _ ih =>
      simp only [Pilot.total, List.map_cons, List.sum_cons] at ih ⊢
      exact add_le_add hab.2.2 ih

/-- What the phases so far keep to. -/
structure Orderly (pilot : Pilot) : Prop where
  two : pilot.phase.2.members.length = 2
  total : total pilot.phase.2.members = pilot.phase.2.attemptLimit
  first : pilot.phase.1 = 0 → ∀ a ∈ pilot.phase.2.members, a.attemptLimit = 1

theorem orderly_initial (config : Config) : Orderly ⟨config, []⟩ := by
  have htwo : config.initial.members.length = 2 := by
    rw [Config.initial, List.length_map, config.two]
  have hone : ∀ a ∈ config.initial.members, a.attemptLimit = 1 := by
    intro a ha
    obtain ⟨m, -, rfl⟩ := List.mem_map.mp ha
    rfl
  refine ⟨htwo, ?_, fun _ => hone⟩
  change (config.initial.members.map (·.attemptLimit)).sum = 2
  rw [List.map_congr_left hone, List.map_const', List.sum_replicate, htwo]
  rfl

theorem readPhase_spec {value : Json} {config : PhaseConfig} (h : readPhase value = .ok config) :
    config.members.length = 2 ∧ total config.members = config.attemptLimit := by
  simp only [readPhase, bind_eq_ok, require_eq_ok, exists_const] at h
  obtain ⟨_, -, -, -, h⟩ := h
  split at h
  next =>
    simp only [bind_eq_ok, require_eq_ok, exists_const, pure_eq_ok] at h
    obtain ⟨-, first, -, second, -, htotal, rfl⟩ := h
    exact ⟨rfl, by dsimp only; omega⟩
  next => cases h

/-- An extension is known already, or adds a phase that raises what the last one allowed and
stays within the budget. -/
theorem extend_spec {value : Json} {expectedPhase : ℤ} {actor reason : String} {row : Phase}
    (ho : pilot.Orderly)
    (h : pilot.extend db value expectedPhase actor reason = .ok (pilot', row)) :
    pilot' = pilot ∨ (pilot' = { pilot with phases := row :: pilot.phases } ∧ pilot'.Orderly ∧
      Raises pilot.phase.2.members pilot'.phase.2.members ∧
      planned pilot'.phase.2.members
          + pilot'.phase.2.attemptLimit * pilot.config.maxFeePerAttemptUnits
        ≤ pilot.config.maximumTotalTigUnits) := by
  simp only [extend, bind_eq_ok, require_eq_ok, exists_const] at h
  obtain ⟨-, config, hread, h⟩ := h
  obtain ⟨htwo, htotal⟩ := readPhase_spec hread
  split at h
  next =>
    simp only [bind_eq_ok, require_eq_ok, exists_const, pure_eq_ok, Prod.mk.injEq] at h
    exact .inl h.2.1.symm
  next =>
    simp only [bind_eq_ok, require_eq_ok, exists_const, pure_eq_ok, Prod.mk.injEq, forM_eq_ok] at h
    obtain ⟨-, -, -, hraises, -, hbudget, -, -, rfl, rfl⟩ := h
    refine .inr ⟨rfl, ⟨htwo, htotal, fun hzero => ?_⟩, ?_, hbudget⟩
    · exact absurd hzero (Nat.succ_ne_zero _)
    · exact List.forall₂_iff_zip.mpr ⟨ho.two.trans htwo.symm, fun hab => hraises _ hab⟩

end Pilot

/-! ## The limits are kept -/

namespace Piloted

variable {s s' : Piloted}

theorem Step.terms (hs : s.Reachable) (h : Step s s') (id : Uuid) (terms : Address × ℕ)
    (hterms : s.sys.db.termsOf id = some terms) : s'.sys.db.termsOf id = some terms := by
  rcases h.service with heq | ⟨a, hstep⟩
  · rw [heq]
    exact hterms
  · exact hstep.terms hs.sys.lawful hterms

theorem Step.owned (hs : s.Reachable) (h : Step s s') (ho : s.sys.db.Owned) : s'.sys.db.Owned := by
  rcases h.service with heq | ⟨a, hstep⟩
  · rw [heq]
    exact ho
  · exact hstep.owned hs.sys.lawful ho

/-- What is outstanding was not decided before, if it was there. -/
theorem Step.outstanding (hs : s.Reachable) (h : Step s s') {id : Uuid} {r r' : Reservation}
    (hr : s.sys.db.funds.reservations.lookup id = some r)
    (hr' : s'.sys.db.funds.reservations.lookup id = some r')
    (hout : Pilot.isOutstanding r'.state = true) : Pilot.isOutstanding r.state = true := by
  rcases h.service with heq | ⟨a, hstep⟩
  · rw [heq, hr] at hr'
    rw [Option.some.inj hr']
    exact hout
  · by_contra hnot
    obtain ⟨r₁, hr₁, hdecided⟩ := hstep.decided hs.sys.lawful hr (Bool.not_eq_true _ ▸ hnot)
    obtain rfl := Option.some.inj (hr'.symm.trans hr₁)
    rw [hout] at hdecided
    cases hdecided

/-- A pilot within its limits. -/
structure Within (s : Piloted) : Prop where
  orderly : s.pilot.Orderly
  count : s.sys.db.sends.length ≤ s.pilot.phase.2.attemptLimit
  each : ∀ wallet, (s.sys.db.sends.countP fun x => x.2.1 = wallet)
    ≤ Pilot.allowance s.pilot.phase.2.members wallet
  fees : ∀ x ∈ s.sys.db.sends, x.2.2 ≤ s.pilot.config.maxFeePerAttemptUnits
  budget : Pilot.planned s.pilot.phase.2.members + (s.sys.db.sends.map (·.2.2)).sum
    ≤ s.pilot.config.maximumTotalTigUnits
  owned : s.sys.db.Owned
  one : ∀ {id id' r r'}, s.sys.db.funds.reservations.lookup id = some r →
    s.sys.db.funds.reservations.lookup id' = some r' → Pilot.isOutstanding r.state = true →
    Pilot.isOutstanding r'.state = true → id = id'
  /-- Work on its way was sent. -/
  started : ∀ {id r}, s.sys.db.funds.reservations.lookup id = some r →
    Pilot.isOutstanding r.state = true → r.state ≠ .reserved →
    (id, .potentiallySent) ∈ s.sys.db.work.reservationEvents

/-- Work on its way is in the account of what was sent, so a passed check finds none. -/
theorem Within.none_outstanding (hw : s.Within) {wallet : Address} {feeLimit : ℤ}
    (hcheck : s.pilot.Passes s.sys.db wallet feeLimit none) {id : Uuid} {r : Reservation}
    (hr : s.sys.db.funds.reservations.lookup id = some r) :
    Pilot.isOutstanding r.state = false := by
  by_contra hout
  have hout : Pilot.isOutstanding r.state = true := Bool.not_eq_false _ ▸ hout
  by_cases hreserved : r.state = .reserved
  · cases hcheck.one hr hreserved
  · have hsent := hw.started hr hout hreserved
    obtain ⟨member, hmember⟩ := Option.isSome_iff_exists.mp (AList.lookup_isSome.mpr (hw.owned hr))
    have hactive := hcheck.active (id, r, member.wallet)
      (Db.mem_sent.mpr ⟨hsent, hr, by rw [hmember]; rfl⟩)
    rw [hactive] at hout
    cases hout

theorem Step.started (hs : s.Reachable) (hw : s.Within) (h : Step s s') {id : Uuid}
    (hcommits : s.sys.db.Keeps s'.sys.db id ∨ s.sys.db.Authorises s'.sys.db id) {r' : Reservation}
    (hr' : s'.sys.db.funds.reservations.lookup id = some r')
    (hout : Pilot.isOutstanding r'.state = true) (hnot : r'.state ≠ .reserved) :
    (id, .potentiallySent) ∈ s'.sys.db.work.reservationEvents := by
  rcases hcommits with hkeeps | ⟨_, _, details, -, -, -, -, hevents, -⟩
  · rw [hkeeps.mem_events]
    have hold : ∃ r, s.sys.db.funds.reservations.lookup id = some r := by
      rcases h.service with heq | ⟨a, hstep⟩
      · exact ⟨r', by rw [← heq]; exact hr'⟩
      · rcases hstep.made hs.sys.lawful hr' with ⟨r, hr, -⟩ | hmade
        · exact ⟨r, hr⟩
        · exact absurd hmade.state hnot
    obtain ⟨r, hr⟩ := hold
    refine hw.started hr (h.outstanding hs hr hr' hout) fun hreserved => ?_
    -- Pending work that is not sent stays pending or is cancelled.
    obtain ⟨r₁, hr₁, hstate⟩ := hkeeps.2 r hr hreserved
    obtain rfl := Option.some.inj (hr'.symm.trans hr₁)
    rcases hstate with hstate | hstate
    · exact hnot hstate
    · rw [hstate] at hout
      cases hout
  · rw [hevents]
    exact (AList.mem_insert _).mpr (.inl rfl)

/-- The account of what was sent stays, and so does the phase. -/
theorem Within.same (hs : s.Reachable) (hw : s.Within) (h : Step s s') (hpilot : s'.pilot = s.pilot)
    (hkeeps : ∀ id, s.sys.db.Keeps s'.sys.db id)
    (hone : ∀ {id id' r r'}, s'.sys.db.funds.reservations.lookup id = some r →
      s'.sys.db.funds.reservations.lookup id' = some r' → Pilot.isOutstanding r.state = true →
      Pilot.isOutstanding r'.state = true → id = id') : s'.Within := by
  have hperm := Db.sends_keeps hs.sys.timely hw.owned (h.terms hs) hkeeps
  constructor
  · rw [hpilot]
    exact hw.orderly
  · rw [hpilot, hperm.length_eq]
    exact hw.count
  · intro wallet
    rw [hpilot, hperm.countP_eq]
    exact hw.each wallet
  · intro x hx
    rw [hpilot]
    exact hw.fees x (hperm.mem_iff.mp hx)
  · rw [hpilot, (hperm.map _).sum_eq]
    exact hw.budget
  · exact h.owned hs hw.owned
  · exact hone
  · exact fun hr' => h.started hs hw (.inl (hkeeps _)) hr'

/-- Where nothing is reserved, no more is outstanding than before. -/
theorem Within.one_of_old (hs : s.Reachable) (hw : s.Within) (h : Step s s')
    (hold : ∀ {id r'}, s'.sys.db.funds.reservations.lookup id = some r' →
      id ∈ s.sys.db.funds.reservations) {id id' : Uuid} {r r' : Reservation}
    (hr : s'.sys.db.funds.reservations.lookup id = some r)
    (hr' : s'.sys.db.funds.reservations.lookup id' = some r')
    (hout : Pilot.isOutstanding r.state = true) (hout' : Pilot.isOutstanding r'.state = true) :
    id = id' := by
  obtain ⟨r₀, hr₀⟩ := Option.isSome_iff_exists.mp (AList.lookup_isSome.mpr (hold hr))
  obtain ⟨r₁, hr₁⟩ := Option.isSome_iff_exists.mp (AList.lookup_isSome.mpr (hold hr'))
  exact hw.one hr₀ hr₁ (h.outstanding hs hr₀ hr hout) (h.outstanding hs hr₁ hr' hout')

/-- A send is within the allowance of its member, and of the pilot. -/
theorem Within.sent (hs : s.Reachable) (hw : s.Within) (h : Step s s') (hpilot : s'.pilot = s.pilot)
    {id : Uuid} {r : Reservation} {member : Member}
    (hauthorises : s.sys.db.Authorises s'.sys.db id)
    (hkeeps : ∀ other ≠ id, s.sys.db.Keeps s'.sys.db other)
    (hold : ∀ {id r'}, s'.sys.db.funds.reservations.lookup id = some r' →
      id ∈ s.sys.db.funds.reservations)
    (hr : s.sys.db.funds.reservations.lookup id = some r)
    (hmember : s.sys.db.funds.members.lookup r.memberId = some member)
    (hcheck : s.pilot.Passes s.sys.db member.wallet r.feeLimit (some id)) : s'.Within := by
  have hperm := Db.sends_authorises hs.sys.timely hw.owned (h.terms hs)
    (Db.termsOf_eq hr hmember) hauthorises hkeeps
  constructor
  · rw [hpilot]
    exact hw.orderly
  · rw [hpilot, hperm.length_eq, List.length_cons]
    exact hcheck.count
  · intro wallet
    rw [hpilot, hperm.countP_eq, List.countP_cons]
    by_cases hwallet : member.wallet = wallet
    · obtain ⟨expected, hturn⟩ := hcheck.turn
      have hleft := Pilot.turn_spec hw.orderly.first hturn
      rw [Pilot.sentBy_sends, hwallet] at hleft
      rw [if_pos (decide_eq_true hwallet)]
      exact hleft
    · rw [if_neg (by simpa using hwallet)]
      exact hw.each wallet
  · intro x hx
    rw [hpilot]
    rcases List.mem_cons.mp (hperm.mem_iff.mp hx) with rfl | hx
    · exact_mod_cast hcheck.fee.2
    · exact hw.fees x hx
  · rw [hpilot, (hperm.map _).sum_eq, List.map_cons, List.sum_cons]
    have hbudget := hcheck.budget
    dsimp only
    omega
  · exact h.owned hs hw.owned
  · exact fun hr hr' => hw.one_of_old hs h hold hr hr'
  · intro other r' hr'
    refine h.started hs hw ?_ hr'
    by_cases hother : other = id
    · subst hother
      exact .inr hauthorises
    · exact .inl (hkeeps _ hother)

/-- A new phase leaves room for what was sent. -/
theorem Within.extended (hw : s.Within) (hsys : s'.sys = s.sys) {value : Json} {expectedPhase : ℤ}
    {actor reason : String} {row : Pilot.Phase}
    (h : s.pilot.extend s.sys.db value expectedPhase actor reason = .ok (s'.pilot, row)) :
    s'.Within := by
  rcases Pilot.extend_spec hw.orderly h with heq | ⟨heq, horderly, hraises, hbudget⟩
  · have hsame : s' = s := by
      cases s'
      cases s
      simp only at hsys heq
      rw [hsys, heq]
    rw [hsame]
    exact hw
  · have hconfig : s'.pilot.config = s.pilot.config := by rw [heq]
    have hcount : s.sys.db.sends.length ≤ s'.pilot.phase.2.attemptLimit := by
      rw [← horderly.total]
      exact (hw.count.trans (hw.orderly.total ▸ le_rfl)).trans hraises.total
    constructor
    · exact horderly
    · rw [hsys]
      exact hcount
    · intro wallet
      rw [hsys]
      exact (hw.each wallet).trans (hraises.allowance wallet)
    · rw [hsys, hconfig]
      exact hw.fees
    · rw [hsys, hconfig]
      have hfees : (s.sys.db.sends.map (·.2.2)).sum
          ≤ s.sys.db.sends.length * s.pilot.config.maxFeePerAttemptUnits := by
        have hle := List.sum_le_card_nsmul (s.sys.db.sends.map (·.2.2))
          s.pilot.config.maxFeePerAttemptUnits (List.forall_mem_map.mpr hw.fees)
        simpa using hle
      exact (Nat.add_le_add_left (hfees.trans (Nat.mul_le_mul_right _ hcount)) _).trans hbudget
    · rw [hsys]
      exact hw.owned
    · rw [hsys]
      exact hw.one
    · rw [hsys]
      exact hw.started

theorem Within.step (hs : s.Reachable) (hw : s.Within) (h : Step s s') : s'.Within := by
  cases h.effect hs with
  | quiet hpilot hkeeps hold =>
      exact hw.same hs h hpilot hkeeps fun hr hr' => hw.one_of_old hs h hold hr hr'
  | @reserved id _ _ _ _ _ _ hpilot hkeeps hold hcheck =>
      -- Nothing was outstanding, so only the new reservation is.
      have hnew : ∀ {other r'}, s'.sys.db.funds.reservations.lookup other = some r' →
          Pilot.isOutstanding r'.state = true → other = id := by
        intro other r' hr' hout
        by_contra hne
        obtain ⟨r, hr⟩ := Option.isSome_iff_exists.mp (AList.lookup_isSome.mpr (hold hr' hne))
        have hbefore := h.outstanding hs hr hr' hout
        rw [hw.none_outstanding (Pilot.check_spec hcheck) hr] at hbefore
        cases hbefore
      refine hw.same hs h hpilot hkeeps fun hr hr' hout hout' => ?_
      rw [hnew hr hout, hnew hr' hout']
  | sent hpilot hauthorises hkeeps hold hr hmember hcheck =>
      exact hw.sent hs h hpilot hauthorises hkeeps hold hr hmember (Pilot.check_spec hcheck)
  | extended hsys hextend => exact hw.extended hsys hextend

/-- A pilot that is installed is within its limits: there is no work yet. -/
theorem within_installed {sys : Sys} {config : Json} {actor : String} {pilot : Pilot}
    (h : Pilot.install sys.db none config actor = .ok pilot) : Within ⟨sys, pilot⟩ := by
  simp only [Pilot.install, bind_eq_ok, require_eq_ok, exists_const, pure_eq_ok] at h
  obtain ⟨config, -, -, ⟨hempty, -⟩, -, rfl⟩ := h
  have hnone : ∀ {id r}, ¬ sys.db.funds.reservations.lookup id = some r := by
    intro id r hr
    have hmem := Table.mem_entries_iff.mpr hr
    rw [hempty] at hmem
    cases hmem
  have hsends : sys.db.sends = [] := by
    refine List.eq_nil_iff_forall_not_mem.mpr fun x hx => ?_
    obtain ⟨r, hr, -⟩ := Option.bind_eq_some_iff.mp (Db.mem_sends.mp hx).2
    exact hnone hr
  constructor
  · exact Pilot.orderly_initial config
  · rw [hsends]
    exact Nat.zero_le _
  · intro wallet
    rw [hsends]
    exact Nat.zero_le _
  · rw [hsends]
    simp
  · rw [hsends]
    have hwithin := config.within
    have hplanned : Pilot.planned config.initial.members = (config.members.map (·.2)).sum := by
      rw [Pilot.planned, Pilot.Config.initial, List.map_map]
      rfl
    change Pilot.planned config.initial.members + 0 ≤ config.maximumTotalTigUnits
    omega
  · exact fun hr => absurd hr hnone
  · exact fun hr => absurd hr hnone
  · exact fun hr => absurd hr hnone

theorem Reachable.within (h : Reachable s) : s.Within := by
  induction h with
  | installed _ hinstall => exact within_installed hinstall
  | step hs hstep ih => exact ih.step hs hstep

/-- Every event of a send has its place in the account. -/
theorem Within.events (hs : s.Reachable) (hw : s.Within) :
    (s.sys.db.work.reservationEvents.count fun key _ => key.2 = .potentiallySent)
      = s.sys.db.sends.length := by
  rw [← Pilot.sent_length, Pilot.sent, List.length_filterMap_eq_countP, AList.keys, List.keys,
    List.countP_map]
  refine List.countP_congr fun e he => ?_
  obtain ⟨⟨id, kind⟩, row⟩ := e
  simp only [decide_eq_true_eq, Function.comp_apply]
  constructor
  · rintro rfl
    have hmem : (id, ReservationEventKind.potentiallySent) ∈ s.sys.db.work.reservationEvents :=
      AList.lookup_isSome.mp (Option.isSome_of_eq_some (Table.mem_entries_iff.mp he))
    obtain ⟨terms, hterms⟩ := hs.sys.timely.terms hw.owned hmem
    obtain ⟨r, hr, hterms⟩ := Option.bind_eq_some_iff.mp hterms
    obtain ⟨member, hmember, -⟩ := Option.map_eq_some_iff.mp hterms
    simp [hr, hmember]
  · intro h
    by_contra hkind
    rw [if_neg hkind] at h
    cases h

/-- What was sent stays in the account, and the phases only raise what is allowed. -/
theorem Step.raises (hs : s.Reachable) (h : Step s s') :
    s'.pilot.config = s.pilot.config ∧
      Pilot.Raises s.pilot.phase.2.members s'.pilot.phase.2.members ∧
      s.pilot.phase.2.attemptLimit ≤ s'.pilot.phase.2.attemptLimit ∧
      s.sys.db.sends ⊆ s'.sys.db.sends := by
  have hw := hs.within
  have hsame : s'.pilot = s.pilot → s'.pilot.config = s.pilot.config ∧
      Pilot.Raises s.pilot.phase.2.members s'.pilot.phase.2.members ∧
      s.pilot.phase.2.attemptLimit ≤ s'.pilot.phase.2.attemptLimit := by
    intro heq
    rw [heq]
    exact ⟨rfl, .refl _, le_rfl⟩
  have hkept : (∀ id, s.sys.db.Keeps s'.sys.db id) → s.sys.db.sends ⊆ s'.sys.db.sends := by
    intro hkeeps x hx
    exact (Db.sends_keeps hs.sys.timely hw.owned (h.terms hs) hkeeps).mem_iff.mpr hx
  cases h.effect hs with
  | quiet hpilot hkeeps =>
      obtain ⟨h₁, h₂, h₃⟩ := hsame hpilot
      exact ⟨h₁, h₂, h₃, hkept hkeeps⟩
  | reserved hpilot hkeeps =>
      obtain ⟨h₁, h₂, h₃⟩ := hsame hpilot
      exact ⟨h₁, h₂, h₃, hkept hkeeps⟩
  | sent hpilot hauthorises hkeeps _ hr hmember =>
      obtain ⟨h₁, h₂, h₃⟩ := hsame hpilot
      refine ⟨h₁, h₂, h₃, fun x hx => ?_⟩
      exact (Db.sends_authorises hs.sys.timely hw.owned (h.terms hs) (Db.termsOf_eq hr hmember)
        hauthorises hkeeps).mem_iff.mpr (List.mem_cons_of_mem _ hx)
  | extended hsys hextend =>
      refine ⟨?_, ?_, ?_, by rw [hsys]; exact fun x hx => hx⟩
      · rcases Pilot.extend_spec hw.orderly hextend with heq | ⟨heq, -⟩ <;> rw [heq]
      · rcases Pilot.extend_spec hw.orderly hextend with heq | ⟨-, -, hraises, -⟩
        · rw [heq]
          exact .refl _
        · exact hraises
      · rcases Pilot.extend_spec hw.orderly hextend with heq | ⟨-, horderly, hraises, -⟩
        · rw [heq]
        · rw [← hw.orderly.total, ← horderly.total]
          exact hraises.total

end Piloted

/-- With a pilot installed, after any steps: what was sent is no more than the phase allows, in
all and for each member; the planned funding and the fee ceilings of all that was sent are
within the original maximum; at most one reservation is outstanding.  In any further step work
is sent only if all that was sent before is active, the policy stays, the phase only raises
what it allows, and nothing that was sent is taken back. -/
theorem pilot_limits {s : Piloted} (hs : s.Reachable) :
    (s.sys.db.work.reservationEvents.count fun key _ => key.2 = .potentiallySent)
        ≤ s.pilot.phase.2.attemptLimit ∧
    (∀ wallet, Pilot.sentBy (Pilot.sent s.sys.db) wallet
      ≤ Pilot.allowance s.pilot.phase.2.members wallet) ∧
    Pilot.planned s.pilot.phase.2.members + Pilot.sentFees (Pilot.sent s.sys.db)
      ≤ s.pilot.config.maximumTotalTigUnits ∧
    (∀ id id' r r', s.sys.db.funds.reservations.lookup id = some r →
      s.sys.db.funds.reservations.lookup id' = some r' → Pilot.isOutstanding r.state = true →
      Pilot.isOutstanding r'.state = true → id = id') ∧
    ∀ s', Piloted.Step s s' →
      (∀ id, (id, .potentiallySent) ∉ s.sys.db.work.reservationEvents →
        (id, .potentiallySent) ∈ s'.sys.db.work.reservationEvents →
        ∀ row ∈ Pilot.sent s.sys.db, row.2.1.state = .active) ∧
      s'.pilot.config = s.pilot.config ∧
      Pilot.Raises s.pilot.phase.2.members s'.pilot.phase.2.members ∧
      s.pilot.phase.2.attemptLimit ≤ s'.pilot.phase.2.attemptLimit ∧
      s.sys.db.sends ⊆ s'.sys.db.sends := by
  have hw := hs.within
  refine ⟨?_, fun wallet => ?_, ?_, fun id id' r r' => hw.one, fun s' h => ⟨?_, h.raises hs⟩⟩
  · rw [hw.events hs]
    exact hw.count
  · rw [Pilot.sentBy_sends]
    exact hw.each wallet
  · rw [Pilot.sentFees_sends]
    exact hw.budget
  · intro id hnot hnow
    have hkept : s.sys.db.Keeps s'.sys.db id → False := fun hkeeps =>
      hnot (hkeeps.mem_events.mp hnow)
    cases h.effect hs with
    | quiet _ hkeeps => exact (hkept (hkeeps id)).elim
    | reserved _ hkeeps => exact (hkept (hkeeps id)).elim
    | sent _ _ _ _ _ _ hcheck => exact (Pilot.check_spec hcheck).active
    | extended hsys =>
        rw [hsys] at hnow
        exact absurd hnow hnot

namespace PilotDay

def first : Address := FirstDay.wallet
def second : Address := "0x00000000000000000000000000000000000000cc"

def network : Network :=
  { FirstDay.network with chainId := StarterCredit.chainId, token := StarterCredit.token }

def deposit : ConfirmedTransfer :=
  { FirstDay.deposit with network := network, amount := 2 * tig }

def member (wallet : Address) : Json :=
  .obj [("funding_units", .str "2000000000000000000"), ("wallet", .str wallet)]

def config : Json :=
  .obj [("api_origin", .str StarterCredit.apiOrigin), ("chain_id", .int StarterCredit.chainId),
    ("max_fee_per_attempt_units", .str "1000"),
    ("maximum_total_tig_units", .str "5000000000000000000"),
    ("members", .arr [member first, member second]), ("pool_wallet", .str network.custody),
    ("token", .str StarterCredit.token), ("version", .int 1)]

def payload : Json :=
  WorkRequests.proposal network.custody "block-0" "challenge" "algorithm" "cpu"
    (.obj [("track", .obj [("num_bundles", .int 1)])])

/-- Two members join before the pilot is installed; the work of the first is sent. -/
def run : Result (Db × Pilot) := do
  let db ← initializeAccounts migrated
  let (db, _) ← registerVerified db first "first"
  let (db, _) ← registerVerified db second "second"
  let db ← setMultiplier db "first" (.finite false [1] (-1)) "operator" "pilot" "multiplier"
  let db ← setCap db 3600 FirstDay.limits "operator" "start" "cap" "cap"
  let (db, _) ← Deposits.receive db deposit
  let pilot ← Pilot.install db none config "operator"
  let (db, _) ← reserve db "first" "work" 1 .CPU .null payload 0 60
    { FirstDay.around with pilot := pilot.atReserve db true "first" .CPU payload 0 } "benchmark"
  let (db, _) ← markSubmitting db "benchmark"
    { FirstDay.around with pilot := pilot.atSend db true "benchmark" }
  return (db, pilot)

theorem reachable {db : Db} {pilot : Pilot} (h : run = .ok (db, pilot)) :
    Piloted.Reachable ⟨⟨db, Held.empty⟩, pilot⟩ := by
  simp only [run, bind_eq_ok, pure_eq_ok, Prod.mk.injEq] at h
  obtain ⟨db₁, h₁, ⟨db₂, _⟩, h₂, ⟨db₃, _⟩, h₃, db₄, h₄, db₅, h₅, ⟨db₆, _⟩, h₆, p, h₇,
    ⟨db₈, _⟩, h₈, ⟨db₉, _⟩, h₉, rfl, rfl⟩ := h
  have hopened : Sys.Reachable Sys.Any ⟨db₁, Held.empty⟩ :=
    ⟨_, Sys.initial_migrated, .one trivial (.funds (.initializeAccounts h₁))⟩
  have hjoined := (hopened.step trivial (.funds (.registerVerified h₂))).step trivial
    (.funds (.registerVerified h₃))
  have hcapped := (hjoined.step trivial (.funds (.setMultiplier h₄))).step trivial
    (.work (.setCap h₅))
  have hfunded := hcapped.step trivial (.funds (.receive h₆))
  exact .step (.step (.installed hfunded h₇) (.reserve h₈)) (.markSubmitting h₉)

end PilotDay

/-- One attempt of two is used. -/
theorem pilot_limits_first_send : ∃ db pilot, PilotDay.run = .ok (db, pilot) ∧
    (db.work.reservationEvents.count fun key _ => key.2 = .potentiallySent) = 1 ∧
    1 ≤ pilot.phase.2.attemptLimit := by
  have hsome : (PilotDay.run.toOption.map fun out =>
      out.1.work.reservationEvents.count fun key _ => key.2 = .potentiallySent) = some 1 := by
    decide +kernel
  obtain ⟨⟨db, pilot⟩, hout, hcount⟩ := Option.map_eq_some_iff.mp hsome
  have hrun := eq_ok_of_toOption hout
  have hlimit := (pilot_limits (PilotDay.reachable hrun)).1
  refine ⟨db, pilot, hrun, hcount, ?_⟩
  rw [← hcount]
  exact hlimit

end TigPool
