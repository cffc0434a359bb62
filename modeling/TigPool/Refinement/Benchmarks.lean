/-
# `TigPool.Refinement.Benchmarks` — members and reservations

What the operations of `members.py` and `benchmarks.py` do to the funds.
-/
import TigPool.Refinement.Moves

namespace TigPool

open Basis

variable {db db' : Db} {identity memberId : Uuid}

/-! ## Members -/

theorem registerVerified_moves {wallet : String} {out : Uuid}
    (h : registerVerified db wallet identity = .ok (db', out)) : db.Moves Change.Quiet db' := by
  simp only [registerVerified, bind_eq_ok] at h
  obtain ⟨wallet, -, h⟩ := h
  split at h
  next =>
    simp only [pure_eq_ok, Prod.mk.injEq] at h
    obtain ⟨rfl, -⟩ := h
    exact .refl db
  next =>
    simp only [bind_eq_ok, require_eq_ok, exists_const, pure_eq_ok, Prod.mk.injEq] at h
    obtain ⟨hfresh, ledger, haccount, rfl, -⟩ := h
    let row : Member := ⟨wallet, wallet, .one, 0, none⟩
    have hput : Funds.Step db.funds (.memberPut identity) (db.putMember identity row).funds :=
      .memberRegistered (AList.lookup_eq_none.mpr hfresh) rfl rfl rfl
    have hpath : Funds.Path Change.Quiet db.funds (db.putMember identity row).funds :=
      .one (c := .memberPut identity) trivial hput
    exact .of_path (hpath.trans (Ledger.account_path haccount rfl))

theorem setMultiplier_moves {value : DecimalInput} {actor reason eventKey : String}
    (h : setMultiplier db memberId value actor reason eventKey = .ok db') :
    db.Moves Change.Quiet db' := by
  simp only [setMultiplier, bind_eq_ok, require_eq_ok, exists_const, memberLock, fetch_eq_ok] at h
  obtain ⟨value, -, -, member, hmember, h⟩ := h
  split at h
  next =>
    simp only [bind_eq_ok, require_eq_ok, exists_const, pure_eq_ok] at h
    obtain ⟨-, rfl⟩ := h
    exact .refl db
  next =>
    simp only [bind_eq_ok, require_eq_ok, exists_const, pure_eq_ok] at h
    obtain ⟨hfresh, rfl⟩ := h
    have hput (change : MultiplierChange) : Funds.Step db.funds (.memberPut memberId)
        { db.funds with
          multiplierChanges :=
            AList.insert (memberId, member.multiplierRevision + 1) change db.funds.multiplierChanges
          members := AList.insert memberId { member with
            multiplier := change.newValue, multiplierRevision := member.multiplierRevision + 1 }
            db.funds.members } := .multiplierSet hmember (AList.lookup_eq_none.mpr hfresh)
    exact .of_step (c := .memberPut memberId) .refl trivial
      (hput ⟨member.multiplier, value, actor, reason, eventKey⟩)

theorem setWithdrawalWallet_moves {newWallet : String}
    (h : setWithdrawalWallet db memberId newWallet = .ok db') : db.Moves Change.Quiet db' := by
  simp only [setWithdrawalWallet, bind_eq_ok, memberLock, fetch_eq_ok, pure_eq_ok] at h
  obtain ⟨newWallet, -, member, hmember, rfl⟩ := h
  exact .of_step (c := .memberPut memberId) .refl trivial (.walletSet hmember)

/-! ## Reservations -/

theorem initializeAccounts_moves (h : initializeAccounts db = .ok db') :
    db.Moves Change.Quiet db' := by
  simp only [initializeAccounts, bind_eq_ok, pure_eq_ok] at h
  obtain ⟨l₁, h₁, l₂, h₂, l₃, h₃, l₄, h₄, l₅, h₅, l₆, h₆, l₇, h₇, rfl⟩ := h
  have open₁ := Ledger.account_path h₁ rfl
  have open₂ := Ledger.account_path (f := { db.funds with ledger := l₁ }) h₂ rfl
  have open₃ := Ledger.account_path (f := { db.funds with ledger := l₂ }) h₃ rfl
  have open₄ := Ledger.account_path (f := { db.funds with ledger := l₃ }) h₄ rfl
  have open₅ := Ledger.account_path (f := { db.funds with ledger := l₄ }) h₅ rfl
  have open₆ := Ledger.account_path (f := { db.funds with ledger := l₅ }) h₆ rfl
  have open₇ := Ledger.account_path (f := { db.funds with ledger := l₆ }) h₇ rfl
  exact .of_path (open₁.trans (open₂.trans (open₃.trans (open₄.trans (open₅.trans
    (open₆.trans open₇))))))

/-- A fresh row, with what `reserve` has checked about it. -/
theorem fresh_moves {row : Reservation} {member : Member} {round : ℕ} {l l' : Ledger}
    (hpath : Funds.Path (Only [.reserved identity memberId round]) db.funds
      { db.funds with ledger := l })
    (hnone : db.funds.reservations.lookup identity = none) (hfresh : row.Fresh)
    (hround : row.creationRound = round) (howner : row.memberId = memberId)
    (hmember : db.funds.members.lookup memberId = some member)
    (hmultiplier : row.multiplier = member.multiplier)
    (hrevision : row.multiplierRevision = member.multiplierRevision)
    (hslots : db.funds.reservations.count (fun _ r => r.memberId = memberId ∧ r.slotHeld) < 2)
    (hrecorded : l.Recorded (.reserve identity) (reserveMovements identity row) l') :
    db.Moves (Only [.reserved identity memberId round])
      ((db.withLedger l').putReservation identity row) := by
  subst hround howner
  exact .of_step hpath .change
    (.reserved (f := { db.funds with ledger := l }) hnone hfresh hmember hmultiplier hrevision hslots
      hrecorded)

theorem reserve_moves (hf : db.funds.Lawful) {requestKey : String} {creationRound : ℤ}
    {resource : Resource} {selection payload : Json} {feeLimit : ℤ} {offerExpiresAt : Time}
    {around : Surroundings} {out : Uuid}
    (h : reserve db memberId requestKey creationRound resource selection payload feeLimit
      offerExpiresAt around identity = .ok (db', out)) :
    db.Moves (Only [.reserved identity memberId creationRound.toNat]) db' := by
  simp only [reserve, bind_eq_ok, require_eq_ok, exists_const, units_eq_ok, memberLock,
    fetch_eq_ok] at h
  obtain ⟨-, round, ⟨rfl, -⟩, fee, -, counts, -, member, hmember, h⟩ := h
  split at h
  next =>
    simp only [bind_eq_ok, require_eq_ok, exists_const, pure_eq_ok, Prod.mk.injEq] at h
    obtain ⟨-, rfl, -⟩ := h
    exact .refl db
  next =>
    simp only [bind_eq_ok, require_eq_ok, exists_const, pure_eq_ok, ite_bind_eq_ok,
      Prod.mk.injEq] at h
    obtain ⟨-, -, hslots, ⟨base, amount⟩, hcollateral, -, -, -, -, l₁, h₁, l₂, h₂, l₃, hpost, hfresh,
      db₁, hevent, rfl, -⟩ := h
    have hnone : db.funds.reservations.lookup identity = none := AList.lookup_eq_none.mpr hfresh
    have hpath : Funds.Path (Only [.reserved identity memberId round]) db.funds
        { db.funds with ledger := l₂ } :=
      Funds.Path.only ((Ledger.account_path h₁ rfl).trans
        (Ledger.account_path (f := { db.funds with ledger := l₁ }) h₂ rfl))
    have hkey : EventKey.reserve identity ∉ l₂.journals := by
      refine (hpath.lawful hf).explained.fresh ?_
      rintro m ⟨r, hr, -⟩
      rw [hnone] at hr
      cases hr
    refine .trans ?_ (event_moves_of_ne hevent (by decide))
    refine fresh_moves hpath hnone ?_ rfl rfl hmember rfl rfl hslots ?_
    · exact ⟨rfl, rfl, rfl, rfl, rfl, rfl, rfl, rfl, collateral_amount hcollateral⟩
    · refine .of_post_ite hpost hkey reserveMovements_balanced fun hzero a => ?_
      obtain ⟨rfl, rfl⟩ : amount = 0 ∧ fee = 0 := by omega
      simp [reserveMovements]

/-- The row that `reserve` makes, and what it found. -/
structure Reservation.MadeIn (db : Db) (r : Reservation) : Prop where
  state : r.state = .reserved
  createdAt : r.createdAt = db.clock
  offered : db.clock < r.offerExpiresAt
  payloadText : r.payloadText = some r.payload
  fee : ∃ u, Spending.checkFee db r.feeLimit = .ok u

/-- The request is reserved under its key already, or a row is made for it. -/
theorem reserve_spec {requestKey : String} {creationRound : ℤ} {resource : Resource}
    {selection payload : Json} {feeLimit : ℤ} {offerExpiresAt : Time} {around : Surroundings}
    {out : Uuid}
    (h : reserve db memberId requestKey creationRound resource selection payload feeLimit
      offerExpiresAt around identity = .ok (db', out)) :
    (db' = db ∧ ∃ row, db.funds.reservations.lookup out = some row ∧ row.memberId = memberId ∧
        row.requestKey = requestKey) ∨
      ∃ row ledger events, db' = { db with
          funds := { db.funds with
            ledger := ledger
            reservations := AList.insert identity row db.funds.reservations }
          work := { db.work with reservationEvents := events } } ∧ out = identity ∧
        row.MadeIn db ∧ row.memberId = memberId ∧ row.requestKey = requestKey ∧
        (row.creationRound : ℤ) = creationRound ∧ row.selection = selection ∧
        row.payload = payload ∧ row.offerExpiresAt = offerExpiresAt ∧
        identity ∉ db.funds.reservations ∧
        (db.funds.reservations.find fun _ r => r.memberId = memberId ∧ r.requestKey = requestKey)
          = none ∧
        ∀ id, events.lookup (id, .potentiallySent)
          = db.work.reservationEvents.lookup (id, .potentiallySent) := by
  simp only [reserve, bind_eq_ok, require_eq_ok, exists_const, units_eq_ok, memberLock,
    fetch_eq_ok] at h
  obtain ⟨-, round, ⟨hround, -⟩, fee, ⟨hfee, -⟩, counts, -, member, -, h⟩ := h
  split at h
  next existing row hfound =>
    simp only [bind_eq_ok, require_eq_ok, exists_const, pure_eq_ok, Prod.mk.injEq] at h
    obtain ⟨-, rfl, rfl⟩ := h
    obtain ⟨hlookup, hkey⟩ := Table.find_eq_some hfound
    obtain ⟨hmember, hkey⟩ := of_decide_eq_true hkey
    exact .inl ⟨rfl, row, hlookup, hmember, hkey⟩
  next hnone =>
    simp only [bind_eq_ok, require_eq_ok, exists_const, pure_eq_ok, ite_bind_eq_ok,
      Prod.mk.injEq] at h
    obtain ⟨-, hoffered, -, ⟨base, amount⟩, -, -, -, u, hcap, l₁, -, l₂, -, l₃, -, hfresh, db₁,
      hevent, rfl, rfl⟩ := h
    have hunsent := event_unsent hevent (by decide)
    exact .inr ⟨_, l₃, _, event_frame hevent, rfl, ⟨rfl, rfl, hoffered, rfl, u, hcap⟩, rfl, rfl,
      hround.symm, rfl, rfl, rfl, hfresh, hnone, hunsent⟩

/-- The keys under which a reservation that has not been accepted is charged and returned. -/
theorem unstarted_keys (hf : db.funds.Lawful) {row : Reservation}
    (hrow : db.funds.reservations.lookup identity = some row)
    (hstate : row.state = .reserved ∨ row.state = .uncertain) :
    EventKey.fee identity ∉ db.funds.ledger.journals ∧
      EventKey.collateralReturn identity ∉ db.funds.ledger.journals := by
  have hshape := (hf.rows.reservation hrow).shape
  constructor
  · refine hf.explained.fresh ?_
    rintro m ⟨r, n, hr, hn, -⟩
    obtain rfl := Option.some.inj (hrow.symm.trans hr)
    rcases hstate with hs | hs <;> simp [Reservation.Shape, hs, hn] at hshape
  · refine hf.explained.fresh ?_
    rintro m ⟨r, hr, hunstarted, -⟩
    obtain rfl := Option.some.inj (hrow.symm.trans hr)
    rcases hstate with hs | hs <;> simp [Reservation.Unstarted, hs] at hunstarted

theorem unhanded_key (hf : db.funds.Lawful) {row : Reservation}
    (hrow : db.funds.reservations.lookup identity = some row) (hstate : row.state = .accepted) :
    EventKey.unhandedReturn identity ∉ db.funds.ledger.journals := by
  refine hf.explained.fresh ?_
  rintro m ⟨r, hr, hunhanded, -⟩
  obtain rfl := Option.some.inj (hrow.symm.trans hr)
  simp [Reservation.Unhanded, hstate] at hunhanded

theorem markSubmitting_moves {around : Surroundings} {out : Json}
    (h : markSubmitting db identity around = .ok (db', out)) :
    db.Moves (Only [.progressed identity]) db' := by
  simp only [markSubmitting, lockedReservation, bind_eq_ok, require_eq_ok, exists_const,
    fetch_eq_ok, pure_eq_ok, Prod.mk.injEq] at h
  obtain ⟨row, hrow, hstate, -, -, -, -, -, -, -, db₁, hevent, rfl, -⟩ := h
  exact .trans (.of_step .refl .change (.progressed hrow (.submitting hstate)))
    (event_moves hevent fun _ => .change)

/-- What marking work as sent found and did. -/
theorem markSubmitting_spec {around : Surroundings} {out : Json}
    (h : markSubmitting db identity around = .ok (db', out)) :
    ∃ row u events, db.funds.reservations.lookup identity = some row ∧ row.state = .reserved ∧
      db.clock < row.offerExpiresAt ∧ Spending.checkFee db row.feeLimit (some identity) = .ok u ∧
      (events = db.work.reservationEvents ∨
        ∃ details, events = AList.insert (identity, .potentiallySent) ⟨details, db.clock⟩
          db.work.reservationEvents) ∧
      (identity, .potentiallySent) ∈ events ∧ db' = { db with
        funds := { db.funds with
          reservations :=
            AList.insert identity { row with state := .uncertain } db.funds.reservations }
        work := { db.work with reservationEvents := events } } := by
  simp only [markSubmitting, lockedReservation, bind_eq_ok, require_eq_ok, exists_const,
    fetch_eq_ok, pure_eq_ok, Prod.mk.injEq] at h
  obtain ⟨row, hrow, hstate, hoffered, -, -, -, -, u, hcap, db₁, hevent, rfl, -⟩ := h
  refine ⟨row, u, _, hrow, hstate, hoffered, hcap, ?_, event_recorded hevent, event_frame hevent⟩
  rcases event_cases hevent with rfl | ⟨-, rfl⟩
  · exact .inl rfl
  · exact .inr ⟨_, rfl⟩

theorem fees_recorded {row : Reservation} {actual : ℤ} {db₁ : Db} {n : ℕ}
    (h : fees db identity row actual = .ok (db₁, n))
    (hkey : EventKey.fee identity ∉ db.funds.ledger.journals) :
    actual = n ∧ n ≤ row.feeLimit ∧ ∃ l, db₁ = db.withLedger l ∧
      db.funds.ledger.Recorded (.fee identity) (feeMovements identity row n) l := by
  simp only [fees, bind_eq_ok, require_eq_ok, exists_const, units_eq_ok, ite_bind_eq_ok, pure_eq_ok,
    Prod.mk.injEq] at h
  obtain ⟨n, ⟨rfl, -⟩, hle, l, hpost, rfl, rfl⟩ := h
  refine ⟨rfl, hle, l, rfl, .of_post_ite hpost hkey feeMovements_balanced fun hzero a => ?_⟩
  obtain ⟨h₁, rfl⟩ : row.feeLimit = 0 ∧ n = 0 := by omega
  simp [feeMovements, h₁]

theorem accept_moves (hf : db.funds.Lawful) {benchmarkId : String} {assignment evidence : Json}
    {actualFee : ℤ} {out : Uuid}
    (h : accept db identity benchmarkId assignment actualFee evidence = .ok (db', out)) :
    db.Moves (Only [.accepted identity]) db' := by
  simp only [accept, lockedReservation, bind_eq_ok, require_eq_ok, exists_const, fetch_eq_ok] at h
  obtain ⟨-, row, hrow, h⟩ := h
  split at h
  next =>
    simp only [bind_eq_ok, require_eq_ok, exists_const, pure_eq_ok, Prod.mk.injEq] at h
    obtain ⟨-, rfl, -⟩ := h
    exact .refl db
  next =>
    simp only [bind_eq_ok, require_eq_ok, exists_const, pure_eq_ok, Prod.mk.injEq] at h
    obtain ⟨hstate, ⟨db₁, actual⟩, hfees, hunused, db₂, hevent, rfl, -⟩ := h
    obtain ⟨-, hle, l, rfl, hrecorded⟩ :=
      fees_recorded hfees (unstarted_keys hf hrow (.inr hstate)).1
    refine .trans (.of_step .refl .change (.accepted hrow hstate hle ?_ hrecorded))
      (event_moves_of_ne hevent (by decide))
    intro k r hr
    simpa using Table.any_eq_false.mp hunused k r hr

theorem releaseUnstarted_moves (hf : db.funds.Lawful) {rejected : Bool} {actualFee : ℤ}
    {evidence : Json} {out : Uuid}
    (h : releaseUnstarted db identity rejected actualFee evidence = .ok (db', out)) :
    ∃ m, db.Moves (Only [.unstarted identity m]) db' ∧
      ∀ r, db.funds.reservations.lookup identity = some r → r.memberId = m := by
  simp only [releaseUnstarted, lockedReservation, bind_eq_ok, require_eq_ok, exists_const,
    fetch_eq_ok] at h
  obtain ⟨-, row, hrow, h⟩ := h
  refine ⟨row.memberId, ?_, fun r hr => by rw [Option.some.inj (hr.symm.trans hrow)]⟩
  by_cases hdone : row.state = if rejected then .rejected else .cancelled
  · simp only [if_pos hdone, bind_eq_ok, require_eq_ok, exists_const, pure_eq_ok,
      Prod.mk.injEq] at h
    obtain ⟨-, rfl, -⟩ := h
    exact .refl db
  · simp only [if_neg hdone, bind_eq_ok, require_eq_ok, exists_const, ite_bind_eq_ok, pure_eq_ok,
      Prod.mk.injEq] at h
    obtain ⟨hstate, -, ⟨db₁, actual⟩, hfees, l', hpost, db₂, hevent, rfl, -⟩ := h
    have hstates : row.state = .uncertain ∧
        (if rejected then ReservationState.rejected else .cancelled) = .rejected ∨
        row.state = .reserved ∧ (if rejected then ReservationState.rejected else .cancelled)
          = .cancelled := by
      cases rejected
      · exact .inr ⟨hstate, rfl⟩
      · exact .inl ⟨hstate, rfl⟩
    obtain ⟨hfee, hreturn⟩ := unstarted_keys hf hrow (hstates.symm.imp And.left And.left)
    obtain ⟨-, hle, l, rfl, hrecorded⟩ := fees_recorded hfees hfee
    have hreturned : l.Recorded (.collateralReturn identity)
        (resolveMovements identity row (available row.memberId)) l' := by
      refine .of_post_ite hpost (hrecorded.notMem_journals (by simp) hreturn)
        (resolveMovements_balanced rfl) fun hzero a => ?_
      simp [resolveMovements, not_ne_iff.mp hzero]
    exact .trans (.of_step .refl .change (.unstarted hrow hstates hle hrecorded hreturned))
      (event_moves_of_ne hevent (by cases rejected <;> decide))

theorem releaseUnhanded_moves (hf : db.funds.Lawful) {actor reason eventKey : String} {out : Uuid}
    (h : releaseUnhanded db identity actor reason eventKey = .ok (db', out)) :
    ∃ m, db.Moves (Only [.unhanded identity m]) db' ∧
      ∀ r, db.funds.reservations.lookup identity = some r → r.memberId = m := by
  simp only [releaseUnhanded, lockedReservation, bind_eq_ok, require_eq_ok, exists_const,
    fetch_eq_ok] at h
  obtain ⟨-, row, hrow, h⟩ := h
  refine ⟨row.memberId, ?_, fun r hr => by rw [Option.some.inj (hr.symm.trans hrow)]⟩
  split at h
  next =>
    simp only [bind_eq_ok, pure_eq_ok, Prod.mk.injEq] at h
    obtain ⟨db₁, hevent, rfl, -⟩ := h
    exact event_moves_of_ne hevent (by decide)
  next =>
    simp only [bind_eq_ok, require_eq_ok, exists_const, ite_bind_eq_ok, pure_eq_ok,
      Prod.mk.injEq] at h
    obtain ⟨⟨hstate, -, -⟩, hhanded, -, -, -, l, hpost, db₁, hevent, rfl, -⟩ := h
    have hreturned : db.funds.ledger.Recorded (.unhandedReturn identity)
        (resolveMovements identity row (available row.memberId)) l := by
      refine .of_post_ite hpost (unhanded_key hf hrow hstate) (resolveMovements_balanced rfl)
        fun hzero a => ?_
      simp [resolveMovements, not_ne_iff.mp hzero]
    exact .trans (.of_step .refl .change (.unhanded hrow hstate hhanded hreturned))
      (event_moves_of_ne hevent (by decide))

theorem acknowledge_moves {digest : Json} {out : Uuid}
    (h : acknowledge db identity memberId digest = .ok (db', out)) :
    db.Moves (Only [.progressed identity]) db' := by
  simp only [acknowledge, lockedReservation, bind_eq_ok, require_eq_ok, exists_const,
    fetch_eq_ok] at h
  obtain ⟨row, hrow, -, h⟩ := h
  split at h
  next =>
    obtain ⟨rfl, -⟩ := Prod.mk.inj (Except.ok.inj h)
    exact .refl db
  next hnone =>
    simp only [bind_eq_ok, require_eq_ok, exists_const, pure_eq_ok, Prod.mk.injEq] at h
    obtain ⟨hstate, db₁, hevent, rfl, -⟩ := h
    have hnot : row.handedOverAt = none := by simpa using hnone
    exact .trans (.of_step .refl .change (.progressed hrow (.handedOver hstate hnot)))
      (event_moves_of_ne hevent (by decide))

theorem recordOutcome_moves {outcome : DefinitiveOutcome} {height : ℤ} {evidence : Json} {out : Uuid}
    (h : recordOutcome db identity outcome height evidence = .ok (db', out)) :
    db.Moves (Only [.progressed identity]) db' := by
  simp only [recordOutcome, lockedReservation, bind_eq_ok, require_eq_ok, exists_const, units_eq_ok,
    fetch_eq_ok] at h
  obtain ⟨-, height, -, row, hrow, h⟩ := h
  split at h
  next =>
    obtain ⟨rfl, -⟩ := Prod.mk.inj (Except.ok.inj h)
    exact .refl db
  next =>
    simp only [bind_eq_ok, require_eq_ok, exists_const, pure_eq_ok, Prod.mk.injEq] at h
    obtain ⟨hstate, hhanded, db₁, hevent, rfl, -⟩ := h
    exact .trans (.of_step .refl .change (.progressed hrow (.outcome hstate hhanded)))
      (event_moves_of_ne hevent (by cases outcome <;> decide))

/-- What accepting work found and did. -/
theorem accept_spec {benchmarkId : String} {assignment evidence : Json} {actualFee : ℤ} {out : Uuid}
    (h : accept db identity benchmarkId assignment actualFee evidence = .ok (db', out)) :
    ∃ row, db.funds.reservations.lookup identity = some row ∧
      (db' = db ∨ ∃ ledger events, ∃ actual : ℕ, row.state = .uncertain ∧ (actual : ℤ) = actualFee ∧
        actual ≤ row.feeLimit ∧
        (∀ id r, db.funds.reservations.lookup id = some r → r.benchmarkId ≠ some benchmarkId) ∧
        (∀ id, events.lookup (id, .potentiallySent)
          = db.work.reservationEvents.lookup (id, .potentiallySent)) ∧
        db' = { db with
          funds := { db.funds with
            ledger := ledger
            reservations := AList.insert identity
              { row with feeActual := some actual, state := .accepted,
                         benchmarkId := some benchmarkId, assignment := some assignment,
                         assignmentDigest := some assignment } db.funds.reservations }
          work := { db.work with reservationEvents := events } }) := by
  simp only [accept, lockedReservation, bind_eq_ok, require_eq_ok, exists_const, fetch_eq_ok] at h
  obtain ⟨-, row, hrow, h⟩ := h
  refine ⟨row, hrow, ?_⟩
  split at h
  next =>
    simp only [bind_eq_ok, require_eq_ok, exists_const, pure_eq_ok, Prod.mk.injEq] at h
    obtain ⟨-, rfl, -⟩ := h
    exact .inl rfl
  next =>
    simp only [bind_eq_ok, require_eq_ok, exists_const, pure_eq_ok, Prod.mk.injEq, fees,
      units_eq_ok, ite_bind_eq_ok] at h
    obtain ⟨hstate, ⟨db₁, actual⟩, ⟨n, ⟨rfl, -⟩, hle, l, -, rfl, rfl⟩, hunused, db₂, hevent, rfl,
      -⟩ := h
    have hunsent := event_unsent hevent (by decide)
    refine .inr ⟨l, _, actual, hstate, rfl, by exact_mod_cast hle, fun id r hr => ?_, hunsent,
      event_frame hevent⟩
    simpa using Table.any_eq_false.mp hunused id r hr

/-- What ending work that was not accepted found and did. -/
theorem releaseUnstarted_spec {rejected : Bool} {actualFee : ℤ} {evidence : Json} {out : Uuid}
    (h : releaseUnstarted db identity rejected actualFee evidence = .ok (db', out)) :
    ∃ row, db.funds.reservations.lookup identity = some row ∧
      (db' = db ∧ row.state = (if rejected then .rejected else .cancelled) ∨
        ∃ ledger events, ∃ actual : ℕ, row.state = (if rejected then .uncertain else .reserved) ∧
          (∀ id, events.lookup (id, .potentiallySent)
            = db.work.reservationEvents.lookup (id, .potentiallySent)) ∧
          db' = { db with
            funds := { db.funds with
              ledger := ledger
              reservations := AList.insert identity
                { row with feeActual := some actual,
                           state := if rejected then .rejected else .cancelled,
                           slotHeld := false, collateralOutcome := some .returned }
                db.funds.reservations }
            work := { db.work with reservationEvents := events } }) := by
  simp only [releaseUnstarted, lockedReservation, bind_eq_ok, require_eq_ok, exists_const,
    fetch_eq_ok] at h
  obtain ⟨-, row, hrow, h⟩ := h
  refine ⟨row, hrow, ?_⟩
  by_cases hdone : row.state = if rejected then .rejected else .cancelled
  · simp only [if_pos hdone, bind_eq_ok, require_eq_ok, exists_const, pure_eq_ok,
      Prod.mk.injEq] at h
    obtain ⟨-, rfl, -⟩ := h
    exact .inl ⟨rfl, hdone⟩
  · simp only [if_neg hdone, bind_eq_ok, require_eq_ok, exists_const, ite_bind_eq_ok, pure_eq_ok,
      Prod.mk.injEq, fees, units_eq_ok] at h
    obtain ⟨hstate, -, ⟨db₁, actual⟩, ⟨n, ⟨rfl, -⟩, -, l, -, rfl, rfl⟩, l', -, db₂, hevent, rfl,
      -⟩ := h
    have hunsent := event_unsent hevent (by cases rejected <;> decide)
    exact .inr ⟨l', _, actual, hstate, hunsent, event_frame hevent⟩

/-- What taking the assignment over found and did. -/
theorem acknowledge_spec {digest : Json} {out : Uuid}
    (h : acknowledge db identity memberId digest = .ok (db', out)) :
    ∃ row, db.funds.reservations.lookup identity = some row ∧
      (db' = db ∨ ∃ events, row.state = .accepted ∧
        (∀ id, events.lookup (id, .potentiallySent)
          = db.work.reservationEvents.lookup (id, .potentiallySent)) ∧
        db' = { db with
          funds := { db.funds with
            reservations := AList.insert identity { row with handedOverAt := some db.clock }
              db.funds.reservations }
          work := { db.work with reservationEvents := events } }) := by
  simp only [acknowledge, lockedReservation, bind_eq_ok, require_eq_ok, exists_const,
    fetch_eq_ok] at h
  obtain ⟨row, hrow, -, h⟩ := h
  refine ⟨row, hrow, ?_⟩
  split at h
  next =>
    obtain ⟨rfl, -⟩ := Prod.mk.inj (Except.ok.inj h)
    exact .inl rfl
  next =>
    simp only [bind_eq_ok, require_eq_ok, exists_const, pure_eq_ok, Prod.mk.injEq] at h
    obtain ⟨hstate, db₁, hevent, rfl, -⟩ := h
    have hunsent := event_unsent hevent (by decide)
    exact .inr ⟨_, hstate, hunsent, event_frame hevent⟩

/-- What recording the end of the work found and did. -/
theorem recordOutcome_spec {outcome : DefinitiveOutcome} {height : ℤ} {evidence : Json} {out : Uuid}
    (h : recordOutcome db identity outcome height evidence = .ok (db', out)) :
    ∃ row, db.funds.reservations.lookup identity = some row ∧
      (db' = db ∧ row.state = outcome.state ∨ ∃ events height, row.state = .accepted ∧
        (∀ id, events.lookup (id, .potentiallySent)
          = db.work.reservationEvents.lookup (id, .potentiallySent)) ∧
        db' = { db with
          funds := { db.funds with
            reservations := AList.insert identity
              { row with state := outcome.state, slotHeld := false, activeAtHeight := height }
              db.funds.reservations }
          work := { db.work with reservationEvents := events } }) := by
  simp only [recordOutcome, lockedReservation, bind_eq_ok, require_eq_ok, exists_const, units_eq_ok,
    fetch_eq_ok] at h
  obtain ⟨-, height, -, row, hrow, h⟩ := h
  refine ⟨row, hrow, ?_⟩
  split at h
  next hdone =>
    obtain ⟨rfl, -⟩ := Prod.mk.inj (Except.ok.inj h)
    exact .inl ⟨rfl, hdone⟩
  next =>
    simp only [bind_eq_ok, require_eq_ok, exists_const, pure_eq_ok, Prod.mk.injEq] at h
    obtain ⟨hstate, -, db₁, hevent, rfl, -⟩ := h
    have hunsent := event_unsent hevent (by cases outcome <;> decide)
    exact .inr ⟨_, _, hstate, hunsent, event_frame hevent⟩

end TigPool
