/-
# `TigPool.Spending` — the rolling window holds

A fee ceiling is counted from the moment it is committed: while its reservation is
pending from when that was made, and from then on from when it was sent.  A cap bounds
what is counted in the window that ends now.  Reservations and first sends are checked
under one fence, custody sends under another, and the cap that a custody send is checked
against is read before its fence; so for custody sends it is the cap that was read, and
for fees it is the latest.

What was counted stays counted: rows are never removed, their ceilings and times never
change, and a reservation stops being pending only by being sent, when its ceiling is
counted anew, or by being cancelled unsent.
-/
import TigPool.Dispatch

namespace TigPool

open Basis

/-! ## What a check says -/

namespace Spending

variable {db : Db} {cap : SpendingCap}

/-- The cap was recorded, and none was recorded later. -/
def Latest (db : Db) (cap : SpendingCap) : Prop :=
  (∃ id, db.work.spendingCaps.lookup id = some cap) ∧
    ∀ id other, db.work.spendingCaps.lookup id = some other → other.createdAt ≤ cap.createdAt

/-- What the search for the cap in force keeps to. -/
theorem foldl_later {rows : List (Uuid × SpendingCap)} :
    ∀ {start : Option (Uuid × SpendingCap)} {e : Uuid × SpendingCap},
      rows.foldl (fun best e => if best.all (later e ·) then some e else best) start = some e →
      (start = some e ∨ e ∈ rows) ∧ (∀ b, start = some b → b.2.createdAt ≤ e.2.createdAt) ∧
        ∀ b ∈ rows, b.2.createdAt ≤ e.2.createdAt := by
  induction rows with
  | nil =>
      intro start e h
      obtain rfl : start = some e := h
      refine ⟨.inl rfl, fun b hb => ?_, nofun⟩
      rw [Option.some.inj hb]
  | cons x rows ih =>
      intro start e h
      obtain ⟨hmem, hstart, hrows⟩ := ih h
      beta_reduce at hmem hstart
      split at hmem
      next hlater =>
        rw [if_pos hlater] at hstart
        have hx := hstart x rfl
        refine ⟨.inr ?_, fun b hb => ?_, ?_⟩
        · rcases hmem with heq | hmem
          · rw [Option.some.inj heq]
            exact List.mem_cons_self
          · exact List.mem_cons_of_mem _ hmem
        · rw [hb, Option.all_some, later, decide_eq_true_eq] at hlater
          rcases hlater with hlt | ⟨heq, -⟩
          · exact hlt.le.trans hx
          · exact heq.le.trans hx
        · rintro b (_ | ⟨_, hb⟩)
          · exact hx
          · exact hrows b hb
      next hnot =>
        rw [if_neg hnot] at hstart
        refine ⟨hmem.imp_right (List.mem_cons_of_mem _), hstart, ?_⟩
        rintro b (_ | ⟨_, hb⟩)
        · cases start with
          | none => exact absurd rfl hnot
          | some best =>
              have hbest := hstart best rfl
              rw [Option.all_some, later, decide_eq_true_eq, not_or, not_lt] at hnot
              exact hnot.1.trans hbest
        · exact hrows b hb

theorem current_latest (h : current db = some cap) : Latest db cap := by
  obtain ⟨⟨id, c⟩, hfold, rfl⟩ := Option.map_eq_some_iff.mp h
  obtain ⟨hmem, -, hall⟩ := foldl_later hfold
  constructor
  · rcases hmem with hnone | hmem
    · cases hnone
    · obtain ⟨⟨k, a⟩, hentry, heq⟩ := List.mem_map.mp hmem
      obtain ⟨rfl, rfl⟩ := Prod.mk.inj heq
      exact ⟨k, Table.mem_entries_iff.mp hentry⟩
  · intro id' other hother
    exact hall (id', other) (List.mem_map.mpr ⟨⟨id', other⟩, Table.mem_entries_iff.mpr hother, rfl⟩)

theorem checkFee_spec {feeLimit : ℕ} {exclude : Option Uuid} {u : Unit}
    (h : checkFee db feeLimit exclude = .ok u) : ∃ cap, Latest db cap ∧
      feeLimit ≤ cap.tigFeeAttemptUnits ∧
      committedFees db cap exclude + feeLimit ≤ cap.tigFeeWindowUnits := by
  simp only [checkFee, bind_eq_ok, require_eq_ok, exists_const, fetch_eq_ok] at h
  obtain ⟨cap, hcap, hattempt, hwindow⟩ := h
  exact ⟨cap, current_latest hcap, hattempt, hwindow⟩

theorem checkGas_spec {feeLimit : ℕ} {u : Unit} (h : checkGas db feeLimit (some cap) = .ok u) :
    feeLimit ≤ cap.nativeFeeAttemptUnits ∧
      committedGas db cap + feeLimit ≤ cap.nativeFeeWindowUnits := by
  simp only [checkGas, bind_eq_ok, require_eq_ok, exists_const, fetch_eq_ok] at h
  obtain ⟨cap', hcap, hattempt, hwindow⟩ := h
  obtain rfl := Option.some.inj hcap
  exact ⟨hattempt, hwindow⟩

end Spending

/-! ## What a step commits -/

namespace Db

variable {db db' : Db}

/-- Nothing on record happened in the future, and what was sent is not pending. -/
structure Timely (db : Db) : Prop where
  sent : ∀ {id e}, db.work.reservationEvents.lookup (id, .potentiallySent) = some e →
    e.createdAt ≤ db.clock ∧ ∃ r, db.funds.reservations.lookup id = some r ∧ r.state ≠ .reserved
  made : ∀ {id r}, db.funds.reservations.lookup id = some r → r.createdAt ≤ db.clock
  attempts : ∀ {id a}, db.funds.withdrawalAttempts.lookup id = some a → a.sentAt ≤ db.clock
  topups : ∀ {id t}, db.funds.protocolTopups.lookup id = some t → t.sentAt ≤ db.clock

/-- The reservation is not sent; if it was pending, it is, or it is cancelled. -/
def Keeps (db db' : Db) (id : Uuid) : Prop :=
  db'.work.reservationEvents.lookup (id, .potentiallySent)
      = db.work.reservationEvents.lookup (id, .potentiallySent) ∧
    ∀ r, db.funds.reservations.lookup id = some r → r.state = .reserved →
      ∃ r', db'.funds.reservations.lookup id = some r' ∧
        (r'.state = .reserved ∨ r'.state = .cancelled)

/-- The reservation is sent, as the cap allows. -/
def Authorises (db db' : Db) (id : Uuid) : Prop :=
  ∃ r u details, db.funds.reservations.lookup id = some r ∧ r.state = .reserved ∧
    Spending.checkFee db r.feeLimit (some id) = .ok u ∧
    db'.funds.reservations
      = AList.insert id { r with state := .uncertain } db.funds.reservations ∧
    db'.work.reservationEvents
      = AList.insert (id, .potentiallySent) ⟨details, db.clock⟩ db.work.reservationEvents ∧
    db'.clock = db.clock

/-- Where the reservations and the events are as they were, nothing is sent. -/
theorem Keeps.of_eq {id : Uuid}
    (hr : db'.funds.reservations.lookup id = db.funds.reservations.lookup id)
    (he : db'.work.reservationEvents.lookup (id, .potentiallySent)
      = db.work.reservationEvents.lookup (id, .potentiallySent)) : db.Keeps db' id :=
  ⟨he, fun r h hs => ⟨r, by rw [hr, h], .inl hs⟩⟩

end Db

section

variable {db db' : Db}

theorem markSubmitting_commits (ht : db.Timely) {identity : Uuid} {around : Surroundings}
    {out : Json} (h : markSubmitting db identity around = .ok (db', out)) (id : Uuid) :
    db.Keeps db' id ∨ db.Authorises db' id := by
  obtain ⟨row, u, events, hrow, hstate, -, hcap, hevents, hrecorded, rfl⟩ := markSubmitting_spec h
  rcases hevents with rfl | ⟨details, rfl⟩
  · -- Pending work has no event of being sent.
    obtain ⟨e, he⟩ := Option.isSome_iff_exists.mp (AList.lookup_isSome.mpr hrecorded)
    obtain ⟨-, r, hr, hnot⟩ := ht.sent he
    obtain rfl := Option.some.inj (hrow.symm.trans hr)
    exact absurd hstate hnot
  · by_cases heq : id = identity
    · subst heq
      exact .inr ⟨row, u, details, hrow, hstate, hcap, rfl, rfl, rfl⟩
    · refine .inl (.of_eq (AList.lookup_insert_ne heq) (AList.lookup_insert_ne ?_))
      exact fun hpair => heq (Prod.mk.inj hpair).1

/-- A reservation that was not there before was made now. -/
theorem reserve_made {memberId identity out : Uuid} {requestKey : String} {creationRound : ℤ}
    {resource : Resource} {selection payload : Json} {feeLimit : ℤ} {offerExpiresAt : Time}
    {around : Surroundings}
    (h : reserve db memberId requestKey creationRound resource selection payload feeLimit
      offerExpiresAt around identity = .ok (db', out)) {id : Uuid} {r : Reservation}
    (hr : db'.funds.reservations.lookup id = some r) :
    db.funds.reservations.lookup id = some r ∨ r.MadeIn db := by
  rcases reserve_spec h with ⟨rfl, -⟩ | ⟨row, _, _, rfl, -, hmade, -⟩
  · exact .inl hr
  · rcases Table.lookup_insert_cases hr with ⟨-, rfl⟩ | ⟨-, hr⟩
    · exact .inr hmade
    · exact .inl hr

theorem reserveNext_made {blockId : String}
    {choose : WorkRequest → Result (Option WorkRequests.Selection)} {queue : List Uuid}
    {around : Surroundings} {pilot : WorkRequest → Result Unit} {fresh : WorkRequests.FreshIds}
    {out : Option Uuid}
    (h : WorkRequests.reserveNext db blockId choose queue around pilot fresh = .ok (db', out))
    {id : Uuid} {r : Reservation} (hr : db'.funds.reservations.lookup id = some r) :
    db.funds.reservations.lookup id = some r ∨ r.MadeIn db := by
  rcases WorkRequests.reserveNext_spec h with ⟨rfl, -⟩ | ⟨block, -, -, hqueue⟩
  · exact .inl hr
  rcases WorkRequests.tryQueue_spec hqueue with ⟨rfl, -⟩ | ⟨_, -, _, -, hattempt⟩
  · exact .inl hr
  obtain ⟨request, selection, -, -, -, htry⟩ := WorkRequests.attempt_spec hattempt
  obtain ⟨reserved, hreserve, hhand⟩ := WorkRequests.tryReserve_spec htry
  simp only [WorkRequests.handOver, bind_eq_ok, pure_eq_ok] at hhand
  obtain ⟨db₁, henqueue, rfl⟩ := hhand
  change db₁.funds.reservations.lookup id = some r at hr
  rw [WorkRequests.enqueue_funds henqueue] at hr
  refine (reserve_made hreserve hr).imp_right fun hmade => ?_
  exact ⟨hmade.state, hmade.createdAt, hmade.offered, hmade.payloadText, hmade.fee⟩

theorem acknowledge_keeps {identity memberId out : Uuid} {digest : Json}
    (h : acknowledge db identity memberId digest = .ok (db', out)) (id : Uuid) :
    db.Keeps db' id := by
  obtain ⟨row, hrow, rfl | ⟨events, hstate, hsame, rfl⟩⟩ := acknowledge_spec h
  · exact .of_eq rfl rfl
  · refine ⟨hsame id, fun r hr hs => ⟨r, ?_, .inl hs⟩⟩
    rw [← hr]
    refine AList.lookup_insert_ne ?_
    rintro rfl
    obtain rfl := Option.some.inj (hrow.symm.trans hr)
    rw [hstate] at hs
    cases hs

theorem recordOutcome_keeps {identity out : Uuid} {outcome : DefinitiveOutcome} {height : ℤ}
    {evidence : Json}
    (h : recordOutcome db identity outcome height evidence = .ok (db', out)) (id : Uuid) :
    db.Keeps db' id := by
  obtain ⟨row, hrow, ⟨rfl, -⟩ | ⟨events, height, hstate, hsame, rfl⟩⟩ := recordOutcome_spec h
  · exact .of_eq rfl rfl
  · refine ⟨hsame id, fun r hr hs => ⟨r, ?_, .inl hs⟩⟩
    rw [← hr]
    refine AList.lookup_insert_ne ?_
    rintro rfl
    obtain rfl := Option.some.inj (hrow.symm.trans hr)
    rw [hstate] at hs
    cases hs

theorem begin_commits (ht : db.Timely) {identity : Uuid} {preflight : Option Preflight}
    {around : Surroundings} {out : ProtocolIntent}
    (h : Submissions.begin db identity preflight around = .ok (db', out)) (id : Uuid) :
    db.Keeps db' id ∨ db.Authorises db' id := by
  obtain ⟨row, intent, -, -, ⟨-, found, u, db₁, payload, -, -, hmark, rfl⟩ | ⟨-, -, -, -, rfl⟩⟩ :=
    Submissions.begin_spec h
  · exact markSubmitting_commits ht hmark id
  · exact .inl (.of_eq rfl rfl)

theorem expireUnsentResults_keeps {reservation : Uuid} {height : ℤ} {lifetime : Json} {out : Bool}
    (h : Reconciliation.expireUnsentResults db reservation height lifetime = .ok (db', out))
    (id : Uuid) : db.Keeps db' id := by
  simp only [Reconciliation.expireUnsentResults, bind_eq_ok] at h
  obtain ⟨row, -, h⟩ := h
  split at h
  next =>
    obtain ⟨rfl, -⟩ := Prod.mk.inj (Except.ok.inj h)
    exact .of_eq rfl rfl
  next =>
    simp only [bind_eq_ok, pure_eq_ok, Prod.mk.injEq] at h
    obtain ⟨⟨db₁, i⟩, houtcome, rfl, -⟩ := h
    obtain ⟨outbox, heq⟩ := Reconciliation.putIntents_frame
    rw [heq]
    exact recordOutcome_keeps houtcome id

theorem expireRejectedResults_keeps {reservation : Uuid} {height : ℤ} {lifetime : Json}
    {receipt : Uuid × Json} {origin : String} {out : Bool}
    (h : Reconciliation.expireRejectedResults db reservation height lifetime receipt origin
      = .ok (db', out)) (id : Uuid) : db.Keeps db' id := by
  simp only [Reconciliation.expireRejectedResults, bind_eq_ok] at h
  obtain ⟨row, -, h⟩ := h
  split at h
  next =>
    obtain ⟨rfl, -⟩ := Prod.mk.inj (Except.ok.inj h)
    exact .of_eq rfl rfl
  next intentId intent hintent =>
    split at h
    next =>
      obtain ⟨rfl, -⟩ := Prod.mk.inj (Except.ok.inj h)
      exact .of_eq rfl rfl
    next =>
      simp only [bind_eq_ok, pure_eq_ok, Prod.mk.injEq] at h
      obtain ⟨⟨db₁, i⟩, houtcome, rfl, -⟩ := h
      exact recordOutcome_keeps houtcome id

end

/-! ## Where custody sends come from -/

namespace Funds

variable {f f' : Funds} {c : Change} {L : Change → Prop} {id : Uuid}

theorem Step.attempt_back (h : Step f c f') {x : WithdrawalAttempt}
    (hx : f'.withdrawalAttempts.lookup id = some x) :
    (∃ x₀, f.withdrawalAttempts.lookup id = some x₀ ∧ x₀.Extends x) ∨ ∃ w, c = .begun w id := by
  cases h with
  | begun =>
      rcases Table.lookup_insert_cases hx with ⟨rfl, -⟩ | ⟨-, hx⟩
      · exact .inr ⟨_, rfl⟩
      · exact .inl ⟨x, hx, .refl x⟩
  | unpaid hold hnone =>
      rcases Table.lookup_insert_cases hx with ⟨rfl, rfl⟩ | ⟨-, hx⟩
      · exact .inl ⟨_, hold, WithdrawalAttempt.Turns.extends (.reconciled hnone)⟩
      · exact .inl ⟨x, hx, .refl x⟩
  | paid hold hnone =>
      rcases Table.lookup_insert_cases hx with ⟨rfl, rfl⟩ | ⟨-, hx⟩
      · exact .inl ⟨_, hold, WithdrawalAttempt.Turns.extends (.reconciled hnone)⟩
      · exact .inl ⟨x, hx, .refl x⟩
  | _ => exact .inl ⟨x, hx, .refl x⟩

theorem Path.attempt_back (h : Path L f f') {x : WithdrawalAttempt}
    (hx : f'.withdrawalAttempts.lookup id = some x) :
    (∃ x₀, f.withdrawalAttempts.lookup id = some x₀ ∧ x₀.Extends x) ∨ ∃ w, L (.begun w id) := by
  induction h generalizing x with
  | refl => exact .inl ⟨x, hx, .refl x⟩
  | step hpath hc hs ih =>
      rcases hs.attempt_back hx with ⟨x₁, hx₁, hext⟩ | ⟨w, rfl⟩
      · refine (ih hx₁).imp_left ?_
        rintro ⟨x₀, hx₀, hext₀⟩
        exact ⟨x₀, hx₀, hext₀.trans hext⟩
      · exact .inr ⟨w, hc⟩

theorem Step.topup_back (h : Step f c f') {x : ProtocolTopup}
    (hx : f'.protocolTopups.lookup id = some x) :
    (∃ x₀, f.protocolTopups.lookup id = some x₀ ∧ x₀.Extends x) ∨ c = .topupBegun id := by
  have hturn := h.topup id
  by_cases hc : c = .topupBegun id
  · exact .inr hc
  refine .inl ?_
  cases hold : f.protocolTopups.lookup id with
  | some x₀ =>
      obtain ⟨x₁, hx₁, hext⟩ := hturn.relates (ProtocolTopup.Extends.refl x₀)
        (fun _ => ProtocolTopup.Turns.extends) hold
      obtain rfl := Option.some.inj (hx.symm.trans hx₁)
      exact ⟨x₀, rfl, hext⟩
  | none =>
      cases h with
      | topupBegun =>
          rcases Table.lookup_insert_cases hx with ⟨rfl, -⟩ | ⟨-, hx⟩
          · exact absurd rfl hc
          · cases hold.symm.trans hx
      | topupReconciled ht =>
          rcases Table.lookup_insert_cases hx with ⟨rfl, -⟩ | ⟨-, hx⟩
          · cases hold.symm.trans ht
          · cases hold.symm.trans hx
      | topupCredited ht =>
          rcases Table.lookup_insert_cases hx with ⟨rfl, -⟩ | ⟨-, hx⟩
          · cases hold.symm.trans ht
          · cases hold.symm.trans hx
      | _ => cases hold.symm.trans hx

theorem Path.topup_back (h : Path L f f') {x : ProtocolTopup}
    (hx : f'.protocolTopups.lookup id = some x) :
    (∃ x₀, f.protocolTopups.lookup id = some x₀ ∧ x₀.Extends x) ∨ L (.topupBegun id) := by
  induction h generalizing x with
  | refl => exact .inl ⟨x, hx, .refl x⟩
  | step hpath hc hs ih =>
      rcases hs.topup_back hx with ⟨x₁, hx₁, hext⟩ | rfl
      · refine (ih hx₁).imp_left ?_
        rintro ⟨x₀, hx₀, hext₀⟩
        exact ⟨x₀, hx₀, hext₀.trans hext⟩
      · exact .inr hc

end Funds

/-! ## Every step -/

namespace Sys

variable {s s' : Sys} {a : Action}

/-- Where the label does not let work go on, nothing is sent. -/
theorem Step.keeps (hs : s.Lawful) (h : Step s a s') {id : Uuid}
    (hnot : ¬ a.does s.db (.progressed id)) : s.db.Keeps s'.db id := by
  refine ⟨(h.sends hs id).resolve_left hnot, fun r hr hstate => ?_⟩
  refine Funds.Path.states (P := fun state => state = .reserved ∨ state = .cancelled) (h.path hs) hr
    (.inl hstate) ?_
  rintro c before after hc hbefore hshift
  cases c with
  | progressed i =>
      obtain ⟨rfl, -⟩ := hshift
      exact absurd hc hnot
  | accepted i =>
      obtain ⟨-, rfl, -⟩ := hshift
      simp at hbefore
  | unstarted i m =>
      obtain ⟨-, ⟨rfl, -⟩ | ⟨-, rfl⟩⟩ := hshift
      · simp at hbefore
      · exact .inr rfl
  | unhanded i m => exact .inr hshift.2.2
  | _ => exact hshift.elim

/-- A step leaves a reservation unsent, or sends it as the cap allows. -/
theorem Step.commits (hs : s.Lawful) (ht : s.db.Timely) (h : Step s a s') (id : Uuid) :
    s.db.Keeps s'.db id ∨ s.db.Authorises s'.db id := by
  by_cases hprog : a.does s.db (.progressed id)
  · cases h with
    | funds h =>
        cases h with
        | markSubmitting h => exact markSubmitting_commits ht h id
        | acknowledge h => exact .inl (acknowledge_keeps h id)
        | recordOutcome h => exact .inl (recordOutcome_keeps h id)
        | _ => simp [Action.does, FundsAction.does, Change.Quiet] at hprog
    | work h =>
        cases h with
        | begin h => exact begin_commits ht h id
        | expireUnsentResults h => exact .inl (expireUnsentResults_keeps h id)
        | expireRejectedResults h => exact .inl (expireRejectedResults_keeps h id)
        | _ => simp [Action.does, WorkAction.does, Change.Quiet] at hprog
    | _ => simp [Action.does, Change.Quiet] at hprog
  · exact .inl (h.keeps hs hprog)

/-- A reservation on record was there before, or was made in this step. -/
theorem Step.made (hs : s.Lawful) (h : Step s a s') {id : Uuid} {r' : Reservation}
    (hr' : s'.db.funds.reservations.lookup id = some r') :
    (∃ r, s.db.funds.reservations.lookup id = some r ∧ r.Extends r') ∨ r'.MadeIn s.db := by
  rcases Funds.Path.reservation_back (h.path hs) hs.funds hr' with hold | ⟨m, n, hdoes⟩
  · exact .inl hold
  cases h with
  | funds h =>
      cases h with
      | reserve h => exact (reserve_made h hr').imp_left fun hr => ⟨r', hr, .refl r'⟩
      | _ => simp [Action.does, FundsAction.does, Change.Quiet] at hdoes
  | work h =>
      cases h with
      | reserveNext _ h => exact (reserveNext_made h hr').imp_left fun hr => ⟨r', hr, .refl r'⟩
      | _ => simp [Action.does, WorkAction.does, Change.Quiet] at hdoes
  | _ => simp [Action.does, Change.Quiet] at hdoes

/-- What is no longer pending never is again. -/
theorem Step.unpending (hs : s.Lawful) (h : Step s a s') {id : Uuid} {r : Reservation}
    (hr : s.db.funds.reservations.lookup id = some r) (hstate : r.state ≠ .reserved) :
    ∃ r', s'.db.funds.reservations.lookup id = some r' ∧ r'.state ≠ .reserved := by
  refine Funds.Path.states (P := (· ≠ .reserved)) (h.path hs) hr hstate ?_
  rintro c before after - - hshift rfl
  cases c <;> simp [Change.Shifts] at hshift

/-- A custody send is prepared under the cap. -/
inductive Prepares (db db' : Db) (id : Uuid) (cap : SpendingCap) : Prop
  | withdrawal {withdrawal out : Uuid} {key actor : String} {preflight : CustodyPreflight}
      {feeLimit : ℤ} {reserve : Option ℤ} {around : Surroundings} :
      Withdrawals.begin db withdrawal key preflight feeLimit actor reserve around id (some cap)
        = .ok (db', out) → Prepares db db' id cap
  | topup {out : Uuid} {key policyCapture feeModel actor : String} {preflight : CustodyPreflight}
      {amount feeLimit : ℤ} {around : Surroundings} :
      Topups.begin db key preflight policyCapture amount feeLimit feeModel actor around id
        (some cap) = .ok (db', out) → Prepares db db' id cap

/-- A withdrawal attempt on record was there before, or is sent now, as the cap allows under
which it is prepared. -/
theorem Step.attempt_sent (hs : s.Lawful) (h : Step s a s') {id : Uuid} {x' : WithdrawalAttempt}
    (hx' : s'.db.funds.withdrawalAttempts.lookup id = some x') :
    (∃ x, s.db.funds.withdrawalAttempts.lookup id = some x ∧ x.Extends x') ∨
      ∃ cap ∈ s.held.caps, Prepares s.db s'.db id cap ∧
        ∃ u, Spending.checkGas s.db x'.feeLimit (some cap) = .ok u ∧
        x'.sentAt = s.db.clock ∧ s.db.funds.withdrawalAttempts.lookup id = none ∧
        s'.db.funds.withdrawalAttempts = AList.insert id x' s.db.funds.withdrawalAttempts ∧
        s'.db.funds.protocolTopups = s.db.funds.protocolTopups := by
  rcases Funds.Path.attempt_back (h.path hs) hx' with hold | ⟨w, hdoes⟩
  · exact .inl hold
  cases h with
  | funds h =>
      cases h with
      | begin hcap h =>
          have hprepares := Prepares.withdrawal h
          obtain ⟨htopups, hsame | ⟨x, u, hgas, hsent, hnone, hinsert⟩⟩ := Withdrawals.begin_gas h
          · rw [hsame] at hx'
            exact .inl ⟨x', hx', .refl x'⟩
          · have hx := hx'
            rw [hinsert] at hx
            rcases Table.lookup_insert_cases hx with ⟨rfl, rfl⟩ | ⟨-, hx⟩
            · exact .inr ⟨_, hcap, hprepares, u, hgas, hsent, hnone, hinsert, htopups⟩
            · exact .inl ⟨x', hx, .refl x'⟩
      | _ => simp [Action.does, FundsAction.does, Change.Quiet] at hdoes
  | work h => cases h <;> simp [Action.does, WorkAction.does, Change.Quiet] at hdoes
  | _ => simp [Action.does, Change.Quiet] at hdoes

/-- And so is a top-up. -/
theorem Step.topup_sent (hs : s.Lawful) (h : Step s a s') {id : Uuid} {x' : ProtocolTopup}
    (hx' : s'.db.funds.protocolTopups.lookup id = some x') :
    (∃ x, s.db.funds.protocolTopups.lookup id = some x ∧ x.Extends x') ∨
      ∃ cap ∈ s.held.caps, Prepares s.db s'.db id cap ∧
        ∃ u, Spending.checkGas s.db x'.feeLimit (some cap) = .ok u ∧
        x'.sentAt = s.db.clock ∧ s.db.funds.protocolTopups.lookup id = none ∧
        s'.db.funds.protocolTopups = AList.insert id x' s.db.funds.protocolTopups ∧
        s'.db.funds.withdrawalAttempts = s.db.funds.withdrawalAttempts := by
  rcases Funds.Path.topup_back (h.path hs) hx' with hold | hdoes
  · exact .inl hold
  cases h with
  | funds h =>
      cases h with
      | beginTopup hcap h =>
          have hprepares := Prepares.topup h
          obtain ⟨hattempts, hsame | ⟨x, u, hgas, hsent, hnone, hinsert⟩⟩ := Topups.begin_gas h
          · rw [hsame] at hx'
            exact .inl ⟨x', hx', .refl x'⟩
          · have hx := hx'
            rw [hinsert] at hx
            rcases Table.lookup_insert_cases hx with ⟨rfl, rfl⟩ | ⟨-, hx⟩
            · exact .inr ⟨_, hcap, hprepares, u, hgas, hsent, hnone, hinsert, hattempts⟩
            · exact .inl ⟨x', hx, .refl x'⟩
      | _ => simp [Action.does, FundsAction.does, Change.Quiet] at hdoes
  | work h => cases h <;> simp [Action.does, WorkAction.does, Change.Quiet] at hdoes
  | _ => simp [Action.does, Change.Quiet] at hdoes

theorem Step.timely (hs : s.Lawful) (ht : s.db.Timely) (h : Step s a s') : s'.db.Timely where
  sent {id e} he := by
    have hclock := h.clock hs
    rcases h.commits hs ht id with ⟨hsame, -⟩ | ⟨r, u, details, -, -, -, hres, hevents, -⟩
    · rw [hsame] at he
      obtain ⟨hpast, r, hr, hstate⟩ := ht.sent he
      exact ⟨hpast.trans hclock, h.unpending hs hr hstate⟩
    · rw [hevents, AList.lookup_insert] at he
      obtain rfl := Option.some.inj he
      exact ⟨hclock, { r with state := .uncertain }, by rw [hres, AList.lookup_insert], nofun⟩
  made hr' := by
    rcases h.made hs hr' with ⟨r, hr, hx⟩ | hmade
    · exact hx.createdAt.trans_le ((ht.made hr).trans (h.clock hs))
    · exact hmade.createdAt.trans_le (h.clock hs)
  attempts hx' := by
    rcases h.attempt_sent hs hx' with ⟨x, hx, hext⟩ | ⟨_, -, -, _, -, hsent, -⟩
    · exact hext.sentAt.trans_le ((ht.attempts hx).trans (h.clock hs))
    · exact hsent.trans_le (h.clock hs)
  topups hx' := by
    rcases h.topup_sent hs hx' with ⟨x, hx, hext⟩ | ⟨_, -, -, _, -, hsent, -⟩
    · exact hext.sentAt.trans_le ((ht.topups hx).trans (h.clock hs))
    · exact hsent.trans_le (h.clock hs)

theorem Reachable.timely {allowed : Sys → Action → Prop} (h : Reachable allowed s) :
    s.db.Timely := by
  refine h.invariant (I := fun s => s.db.Timely) (fun s hi => ?_)
    fun t a t' _ ht hI hs => hs.timely ht.lawful hI
  refine ⟨fun he => ?_, fun hr => ?_, fun hx => ?_, fun hx => ?_⟩
  · rw [hi.events] at he
    cases he
  · rw [hi.funds] at hr
    cases hr
  · rw [hi.funds] at hx
    cases hx
  · rw [hi.funds] at hx
    cases hx

/-- A cap that was read is on record. -/
theorem Reachable.capRead {allowed : Sys → Action → Prop} (h : Reachable allowed s)
    {cap : SpendingCap} (hcap : cap ∈ s.held.caps) :
    ∃ id, s.db.work.spendingCaps.lookup id = some cap := by
  refine h.invariant (I := fun s => ∀ cap ∈ s.held.caps,
    ∃ id, s.db.work.spendingCaps.lookup id = some cap) ?_ ?_ cap hcap
  · intro s hi cap hcap
    rw [hi.held] at hcap
    cases hcap
  · intro t a t' _ ht hI hs cap hcap
    have hkept : cap ∈ t.held.caps → ∃ id, t'.db.work.spendingCaps.lookup id = some cap := by
      intro hcap
      obtain ⟨id, hid⟩ := hI cap hcap
      exact ⟨id, (hs.caps ht.lawful).lookup hid⟩
    cases hs with
    | hold hs =>
        cases hs with
        | readCap hread =>
            rcases List.mem_cons.mp hcap with rfl | hcap
            · exact (Spending.current_latest hread).1
            · exact hkept hcap
        | _ => exact hkept hcap
    | _ => exact hkept hcap

end Sys

/-! ## The window -/

theorem ite_le_ite_of_imp {p q : Prop} [Decidable p] [Decidable q] (h : p → q) (n : ℕ) :
    (if p then n else 0) ≤ if q then n else 0 := by
  split
  next hp => rw [if_pos (h hp)]
  next => exact Nat.zero_le _

namespace Db

variable {db db' : Db} {t : Time}

/-- What the latest cap allowed when the reservation was sent stays allowed as time passes. -/
theorem Authorises.within (ht : db.Timely) {id : Uuid} (h : db.Authorises db' id) :
    ∃ cap r, Spending.Latest db cap ∧ db'.funds.reservations.lookup id = some r ∧
      r.feeLimit ≤ cap.tigFeeAttemptUnits ∧ ∀ t, db.clock ≤ t →
        Spending.committedFees { db' with clock := t } cap none ≤ cap.tigFeeWindowUnits := by
  obtain ⟨r, u, details, hr, hstate, hcap, hres, hevents, -⟩ := h
  obtain ⟨cap, hlatest, hattempt, hwindow⟩ := Spending.checkFee_spec hcap
  refine ⟨cap, { r with state := .uncertain }, hlatest, by rw [hres, AList.lookup_insert], hattempt,
    fun t hclock => le_trans ?_ hwindow⟩
  unfold Spending.committedFees
  dsimp only
  rw [hres, Table.total_insert, add_comm]
  refine add_le_add (Table.total_le_total fun k x hx => ⟨x, ?_, ?_⟩) ?_
  · exact (Table.lookup_erase_cases hx).2
  · have hne := (Table.lookup_erase_cases hx).1
    have hold := (Table.lookup_erase_cases hx).2
    have hshift := sub_le_sub_right hclock (seconds cap.windowSeconds)
    refine ite_le_ite_of_imp ?_ _
    rintro ⟨-, hcounted⟩
    refine ⟨by simpa using hne, ?_⟩
    rcases hcounted with hsent | ⟨hs, hsince, -⟩
    · rw [show db'.work.reservationEvents.lookup (k, .potentiallySent)
          = db.work.reservationEvents.lookup (k, .potentiallySent) by
        rw [hevents]
        exact AList.lookup_insert_ne fun heq => hne (Prod.mk.inj heq).1] at hsent
      obtain ⟨e, he, hin⟩ := Option.any_eq_true _ _ |>.mp hsent
      refine .inl (Option.any_eq_true _ _ |>.mpr ⟨e, he, ?_⟩)
      have hpast := (ht.sent he).1
      have hin := of_decide_eq_true hin
      exact decide_eq_true ⟨hshift.trans_lt hin.1, hpast⟩
    · exact .inr ⟨hs, hshift.trans_lt hsince, ht.made hold⟩
  · split
    next => exact le_rfl
    next => exact Nat.zero_le _

/-- What was counted stays counted, unless it is cancelled unsent. -/
theorem committedFees_mono (ht : db.Timely) (hclock : db.clock ≤ t)
    (hext : db.funds.Extends db'.funds) (hcommits : ∀ id, db.Keeps db' id ∨ db.Authorises db' id)
    (huncancelled : ∀ id r r', db.funds.reservations.lookup id = some r → r.state = .reserved →
      db'.funds.reservations.lookup id = some r' → r'.state ≠ .cancelled) (cap : SpendingCap) :
    Spending.committedFees { db with clock := t } cap none
      ≤ Spending.committedFees { db' with clock := t } cap none := by
  unfold Spending.committedFees
  refine Table.total_le_total fun id r hr => ?_
  obtain ⟨r', hr', hx⟩ := hext.reservation hr
  refine ⟨r', hr', ?_⟩
  rw [hx.feeLimit]
  refine ite_le_ite_of_imp ?_ _
  rintro ⟨hne, hcounted⟩
  refine ⟨hne, ?_⟩
  rcases hcommits id with ⟨hsame, hpending⟩ | ⟨r₀, u, details, hr₀, hstate, -, -, hevents, -⟩
  · rcases hcounted with hsent | ⟨hs, hin⟩
    · refine .inl ?_
      rw [← hsame] at hsent
      exact hsent
    · obtain ⟨r'', hr'', hs'⟩ := hpending r hr hs
      obtain rfl := Option.some.inj (hr'.symm.trans hr'')
      refine .inr ⟨hs'.resolve_right (huncancelled id r r' hr hs hr'), ?_⟩
      rw [hx.createdAt]
      exact hin
  · obtain rfl := Option.some.inj (hr.symm.trans hr₀)
    refine .inl (Option.any_eq_true _ _ |>.mpr ⟨⟨details, db.clock⟩, ?_, ?_⟩)
    · show db'.work.reservationEvents.lookup (id, .potentiallySent) = _
      rw [hevents, AList.lookup_insert]
    · rcases hcounted with hsent | ⟨-, hsince, -⟩
      · -- Pending work has no event of being sent.
        obtain ⟨e, he, -⟩ := Option.any_eq_true _ _ |>.mp hsent
        obtain ⟨-, r₁, hr₁, hnot⟩ := ht.sent he
        obtain rfl := Option.some.inj (hr.symm.trans hr₁)
        exact absurd hstate hnot
      · exact decide_eq_true ⟨hsince.trans_le (ht.made hr), hclock⟩

theorem committedGas_mono (hext : db.funds.Extends db'.funds) {cap : SpendingCap} :
    Spending.committedGas { db with clock := t } cap
      ≤ Spending.committedGas { db' with clock := t } cap := by
  unfold Spending.committedGas
  refine add_le_add (Table.total_le_total fun id x hx => ?_)
    (Table.total_le_total fun id x hx => ?_)
  · obtain ⟨x', hx', hsame⟩ := hext.attempt hx
    exact ⟨x', hx', by rw [hsame.sentAt, hsame.feeLimit]⟩
  · obtain ⟨x', hx', hsame⟩ := hext.topup hx
    exact ⟨x', hx', by rw [hsame.sentAt, hsame.feeLimit]⟩

/-- As time passes, less of what is on record is in the window. -/
theorem committedGas_later (ht : db.Timely) (hclock : db.clock ≤ t) {cap : SpendingCap} :
    Spending.committedGas { db with clock := t } cap ≤ Spending.committedGas db cap := by
  have hshift := sub_le_sub_right hclock (seconds cap.windowSeconds)
  unfold Spending.committedGas
  refine add_le_add (Table.total_le_total fun id x hx => ⟨x, hx, ?_⟩)
    (Table.total_le_total fun id x hx => ⟨x, hx, ?_⟩)
  · exact ite_le_ite_of_imp (fun h => ⟨hshift.trans_lt h.1, ht.attempts hx⟩) _
  · exact ite_le_ite_of_imp (fun h => ⟨hshift.trans_lt h.1, ht.topups hx⟩) _

theorem committedGas_attempt (ht : db.Timely) (hclock : db.clock ≤ t) {id : Uuid}
    {x : WithdrawalAttempt} (hnone : db.funds.withdrawalAttempts.lookup id = none)
    (hinsert : db'.funds.withdrawalAttempts = AList.insert id x db.funds.withdrawalAttempts)
    (hsame : db'.funds.protocolTopups = db.funds.protocolTopups) {cap : SpendingCap} :
    Spending.committedGas { db' with clock := t } cap
      ≤ Spending.committedGas db cap + x.feeLimit := by
  have hlater := @committedGas_later _ _ ht hclock cap
  unfold Spending.committedGas at hlater ⊢
  dsimp only at hlater ⊢
  rw [hinsert, hsame, Table.total_insert_fresh hnone, add_assoc, add_comm]
  refine add_le_add hlater ?_
  split
  next => exact le_rfl
  next => exact Nat.zero_le _

theorem committedGas_topup (ht : db.Timely) (hclock : db.clock ≤ t) {id : Uuid}
    {x : ProtocolTopup} (hnone : db.funds.protocolTopups.lookup id = none)
    (hinsert : db'.funds.protocolTopups = AList.insert id x db.funds.protocolTopups)
    (hsame : db'.funds.withdrawalAttempts = db.funds.withdrawalAttempts) {cap : SpendingCap} :
    Spending.committedGas { db' with clock := t } cap
      ≤ Spending.committedGas db cap + x.feeLimit := by
  have hlater := @committedGas_later _ _ ht hclock cap
  unfold Spending.committedGas at hlater ⊢
  dsimp only at hlater ⊢
  rw [hinsert, hsame, Table.total_insert_fresh hnone, add_left_comm, add_comm]
  refine add_le_add hlater ?_
  split
  next => exact le_rfl
  next => exact Nat.zero_le _

end Db

/-! ## The cap -/

namespace Sys

variable {s s' : Sys} {a : Action}

/-- What is marked as sent in a step is authorised in it. -/
theorem Step.authorises (hr : Reachable Any s) (h : Step s a s') {id : Uuid}
    (hnot : (id, .potentiallySent) ∉ s.db.work.reservationEvents)
    (hnow : (id, .potentiallySent) ∈ s'.db.work.reservationEvents) :
    s.db.Authorises s'.db id := by
  refine (h.commits hr.lawful hr.timely id).resolve_left ?_
  rintro ⟨hsame, -⟩
  rw [← AList.lookup_isSome, hsame, AList.lookup_isSome] at hnow
  exact hnot hnow

/-- A custody send is within the limits of the cap that was read for it, and under which it is
prepared. -/
def SentWithin (s s' : Sys) (id : Uuid) (feeLimit : ℕ) : Prop :=
  ∃ cap ∈ s.held.caps, Prepares s.db s'.db id cap ∧
    (∃ key, s.db.work.spendingCaps.lookup key = some cap) ∧
    feeLimit ≤ cap.nativeFeeAttemptUnits ∧ ∀ t, s'.db.clock ≤ t →
      Spending.committedGas { s'.db with clock := t } cap ≤ cap.nativeFeeWindowUnits

theorem Step.attempt_within (hr : Reachable Any s) (h : Step s a s') {id : Uuid}
    {x : WithdrawalAttempt} (hnone : s.db.funds.withdrawalAttempts.lookup id = none)
    (hx : s'.db.funds.withdrawalAttempts.lookup id = some x) : SentWithin s s' id x.feeLimit := by
  rcases h.attempt_sent hr.lawful hx with ⟨x₀, hx₀, -⟩ |
    ⟨cap, hcap, hprepares, u, hgas, -, -, hinsert, hsame⟩
  · cases hnone.symm.trans hx₀
  obtain ⟨hlimit, hwindow⟩ := Spending.checkGas_spec hgas
  refine ⟨cap, hcap, hprepares, hr.capRead hcap, hlimit, fun t hnow => ?_⟩
  have hclock := (h.clock hr.lawful).trans hnow
  exact (Db.committedGas_attempt hr.timely hclock hnone hinsert hsame).trans hwindow

theorem Step.topup_within (hr : Reachable Any s) (h : Step s a s') {id : Uuid}
    {x : ProtocolTopup} (hnone : s.db.funds.protocolTopups.lookup id = none)
    (hx : s'.db.funds.protocolTopups.lookup id = some x) : SentWithin s s' id x.feeLimit := by
  rcases h.topup_sent hr.lawful hx with ⟨x₀, hx₀, -⟩ |
    ⟨cap, hcap, hprepares, u, hgas, -, -, hinsert, hsame⟩
  · cases hnone.symm.trans hx₀
  obtain ⟨hlimit, hwindow⟩ := Spending.checkGas_spec hgas
  refine ⟨cap, hcap, hprepares, hr.capRead hcap, hlimit, fun t hnow => ?_⟩
  have hclock := (h.clock hr.lawful).trans hnow
  exact (Db.committedGas_topup hr.timely hclock hnone hinsert hsame).trans hwindow

/-- While no cap is recorded, nothing is reserved or sent. -/
theorem Step.uncapped (hr : Reachable Any s) (h : Step s a s')
    (hcaps : s.db.work.spendingCaps = ∅) :
    (∀ id, id ∈ s'.db.funds.reservations → id ∈ s.db.funds.reservations) ∧
      (∀ id, (id, .potentiallySent) ∈ s'.db.work.reservationEvents →
        (id, .potentiallySent) ∈ s.db.work.reservationEvents) ∧
      (∀ id, id ∈ s'.db.funds.withdrawalAttempts → id ∈ s.db.funds.withdrawalAttempts) ∧
      ∀ id, id ∈ s'.db.funds.protocolTopups → id ∈ s.db.funds.protocolTopups := by
  have hnocap : ∀ {key cap}, ¬ s.db.work.spendingCaps.lookup key = some cap := by
    intro key cap hcap
    rw [hcaps] at hcap
    cases hcap
  refine ⟨fun id hmem => ?_, fun id hmem => ?_, fun id hmem => ?_, fun id hmem => ?_⟩
  · obtain ⟨r, hr'⟩ := Option.isSome_iff_exists.mp (AList.lookup_isSome.mpr hmem)
    rcases h.made hr.lawful hr' with ⟨r₀, hr₀, -⟩ | hmade
    · exact AList.lookup_isSome.mp (Option.isSome_of_eq_some hr₀)
    · obtain ⟨u, hcheck⟩ := hmade.fee
      obtain ⟨cap, ⟨⟨key, hkey⟩, -⟩, -⟩ := Spending.checkFee_spec hcheck
      exact absurd hkey hnocap
  · by_contra hnot
    obtain ⟨r, u, -, -, -, hcheck, -⟩ := h.authorises hr hnot hmem
    obtain ⟨cap, ⟨⟨key, hkey⟩, -⟩, -⟩ := Spending.checkFee_spec hcheck
    exact hnocap hkey
  · by_contra hnot
    obtain ⟨x, hx⟩ := Option.isSome_iff_exists.mp (AList.lookup_isSome.mpr hmem)
    obtain ⟨cap, -, -, ⟨key, hkey⟩, -⟩ := h.attempt_within hr (AList.lookup_eq_none.mpr hnot) hx
    exact hnocap hkey
  · by_contra hnot
    obtain ⟨x, hx⟩ := Option.isSome_iff_exists.mp (AList.lookup_isSome.mpr hmem)
    obtain ⟨cap, -, -, ⟨key, hkey⟩, -⟩ := h.topup_within hr (AList.lookup_eq_none.mpr hnot) hx
    exact hnocap hkey

end Sys

/-- In every run, whatever is interleaved: a precommit is sent only if what is counted then
is within the window of the latest cap, and its own ceiling within the limit of an attempt;
a custody send is begun only if the same holds of the cap that its transaction read; what is
counted in a window is not lowered but by cancelling work that was never sent; and while no
cap is recorded, nothing is reserved or sent. -/
theorem spending_cap {s s' : Sys} {a : Action} (hr : Sys.Reachable Sys.Any s)
    (h : Sys.Step s a s') :
    (∀ id, (id, .potentiallySent) ∉ s.db.work.reservationEvents →
      (id, .potentiallySent) ∈ s'.db.work.reservationEvents →
      ∃ cap r, Spending.Latest s.db cap ∧ s'.db.funds.reservations.lookup id = some r ∧
        r.feeLimit ≤ cap.tigFeeAttemptUnits ∧ ∀ t, s'.db.clock ≤ t →
          Spending.committedFees { s'.db with clock := t } cap none ≤ cap.tigFeeWindowUnits) ∧
    (∀ id x, s.db.funds.withdrawalAttempts.lookup id = none →
      s'.db.funds.withdrawalAttempts.lookup id = some x → Sys.SentWithin s s' id x.feeLimit) ∧
    (∀ id x, s.db.funds.protocolTopups.lookup id = none →
      s'.db.funds.protocolTopups.lookup id = some x → Sys.SentWithin s s' id x.feeLimit) ∧
    (∀ cap t, s'.db.clock ≤ t →
      ((∀ id r r', s.db.funds.reservations.lookup id = some r → r.state = .reserved →
          s'.db.funds.reservations.lookup id = some r' → r'.state ≠ .cancelled) →
        Spending.committedFees { s.db with clock := t } cap none
          ≤ Spending.committedFees { s'.db with clock := t } cap none) ∧
      Spending.committedGas { s.db with clock := t } cap
        ≤ Spending.committedGas { s'.db with clock := t } cap) ∧
    (s.db.work.spendingCaps = ∅ →
      (∀ id, id ∈ s'.db.funds.reservations → id ∈ s.db.funds.reservations) ∧
      (∀ id, (id, .potentiallySent) ∈ s'.db.work.reservationEvents →
        (id, .potentiallySent) ∈ s.db.work.reservationEvents) ∧
      (∀ id, id ∈ s'.db.funds.withdrawalAttempts → id ∈ s.db.funds.withdrawalAttempts) ∧
      ∀ id, id ∈ s'.db.funds.protocolTopups → id ∈ s.db.funds.protocolTopups) := by
  have hclock := h.clock hr.lawful
  have hcommits := h.commits hr.lawful hr.timely
  refine ⟨fun id hnot hnow => ?_, fun _ _ => h.attempt_within hr, fun _ _ => h.topup_within hr,
    fun cap t hnow => ⟨fun huncancelled => ?_, ?_⟩, h.uncapped hr⟩
  · obtain ⟨cap, r, hlatest, hlookup, hlimit, hwindow⟩ :=
      (h.authorises hr hnot hnow).within hr.timely
    exact ⟨cap, r, hlatest, hlookup, hlimit, fun t ht => hwindow t (hclock.trans ht)⟩
  · exact Db.committedFees_mono hr.timely (hclock.trans hnow) (h.extends hr.lawful) hcommits
      huncancelled cap
  · exact Db.committedGas_mono (h.extends hr.lawful)

/-- The work of the first day is sent. -/
theorem spending_cap_evening : ∃ s' cap r,
    Sys.Step FirstDay.evening (.funds (.markSubmitting "benchmark")) s' ∧
      Spending.Latest FirstDay.evening.db cap ∧
      s'.db.funds.reservations.lookup "benchmark" = some r ∧ r.feeLimit ≤ cap.tigFeeAttemptUnits ∧
      Spending.committedFees s'.db cap none ≤ cap.tigFeeWindowUnits := by
  have hnot : ("benchmark", ReservationEventKind.potentiallySent)
      ∉ FirstDay.evening.db.work.reservationEvents := by decide +kernel
  have hsome : (markSubmitting FirstDay.evening.db "benchmark" FirstDay.around).toOption.isSome := by
    decide +kernel
  obtain ⟨⟨db', out⟩, hsent⟩ := Option.isSome_iff_exists.mp hsome
  have hmark := eq_ok_of_toOption hsent
  have hstep : Sys.Step FirstDay.evening (.funds (.markSubmitting "benchmark")) ⟨db', Held.empty⟩ :=
    .funds (.markSubmitting hmark)
  obtain ⟨_, _, _, -, -, -, -, -, hrecorded, rfl⟩ := markSubmitting_spec hmark
  have hr : Sys.Reachable Sys.Any FirstDay.evening :=
    FirstDay.reachable fun _ _ _ _ _ => trivial
  obtain ⟨cap, r, hlatest, hlookup, hlimit, hwindow⟩ :=
    (spending_cap hr hstep).1 "benchmark" hnot hrecorded
  exact ⟨_, cap, r, hstep, hlatest, hlookup, hlimit, hwindow _ le_rfl⟩

end TigPool
