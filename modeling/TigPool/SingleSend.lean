/-
# `TigPool.SingleSend` — at most one POST per intent

`begin` commits that an intent may have been sent before a coordinator posts it, and
commits that for each intent once.  A run of the service with its coordinators notes what
was authorised, which authorisations a coordinator has in hand, and what was posted;
coordinators interleave, and stop between any two transactions.  What is uncertain stays so
until TIG's answer is known: the tables of `Db.Coupled` are all that this rests on.
-/
import TigPool.Outbox
import TigPool.Collateral
import TigPool.Responses

namespace TigPool

open Basis

/-! ## Intents only go on -/

namespace Db.Dispatches

variable {db db' : Db}

/-- Intents are made ready, and turn. -/
theorem intents (h : db.Dispatches db') (intentId : Uuid) :
    Evolves (fun i => i.state = .ready) ProtocolIntent.Turns
      (db.work.protocolOutbox.lookup intentId) (db'.work.protocolOutbox.lookup intentId) := by
  have hinsert : ∀ {k i i'}, db.work.protocolOutbox.lookup k = some i → i.Turns i' →
      db'.work.protocolOutbox = AList.insert k i' db.work.protocolOutbox →
      Evolves (fun i => i.state = .ready) ProtocolIntent.Turns
        (db.work.protocolOutbox.lookup intentId) (db'.work.protocolOutbox.lookup intentId) := by
    intro k i i' hi ht houtbox
    rw [houtbox]
    refine Evolves.insert ?_ intentId
    rw [hi]
    exact .turned ht
  have hmake : ∀ {k i}, k ∉ db.work.protocolOutbox → i.state = .ready →
      db'.work.protocolOutbox = AList.insert k i db.work.protocolOutbox →
      Evolves (fun i => i.state = .ready) ProtocolIntent.Turns
        (db.work.protocolOutbox.lookup intentId) (db'.work.protocolOutbox.lookup intentId) := by
    intro k i hk hstate houtbox
    rw [houtbox]
    refine Evolves.insert ?_ intentId
    rw [AList.lookup_eq_none.mpr hk]
    exact .made hstate
  cases h with
  | rests h => exact (h.outbox intentId).mono (fun _ => False.elim) fun _ _ ht => ht.2
  | uploaded hi hk houtbox => exact hmake hk hi.state houtbox
  | reserved _ hk _ _ _ hready _ houtbox => exact hmake hk hready houtbox
  | authorised hi _ hready _ _ _ houtbox => exact hinsert hi (.sent hready) houtbox
  | withdrawn hi _ hready _ _ houtbox => exact hinsert hi (.retired hready) houtbox
  | answered hi _ hun _ houtbox => exact hinsert hi (.answered hun) houtbox
  | refused hi _ hun _ _ houtbox => exact hinsert hi (.refused hun) houtbox
  | published _ _ _ houtbox =>
      rw [houtbox]
      exact .same

end Db.Dispatches

/-- The intent has left `ready`, and it never comes back. -/
def Db.Begun (db : Db) (intentId : Uuid) : Prop :=
  ∃ i, db.work.protocolOutbox.lookup intentId = some i ∧ i.state ≠ .ready

theorem ProtocolIntent.Turns.begun {i i' : ProtocolIntent} (h : i.Turns i') :
    i'.state ≠ .ready := by
  cases h <;> simp

namespace Sys

variable {s s' : Sys} {a : Action} {intentId : Uuid}

theorem Step.begun (hs : s.Lawful) (hc : s.db.Coupled) (ha : Whole s a) (h : Step s a s')
    (hbegun : s.db.Begun intentId) : s'.db.Begun intentId := by
  obtain ⟨i, hi, hstate⟩ := hbegun
  exact ((h.dispatches hs hc ha).intents intentId).relates
    (R := fun _ i' : ProtocolIntent => i'.state ≠ .ready) hstate (fun _ ht => ht.begun) hi

theorem run_begun (hs : Reachable Whole s) (h : Leads Step Whole s s')
    (hbegun : s.db.Begun intentId) : s'.db.Begun intentId := by
  have hboth : Reachable Whole s' ∧ s'.db.Begun intentId := by
    refine h.invariant (I := fun t => Reachable Whole t ∧ t.db.Begun intentId) ⟨hs, hbegun⟩ ?_
    rintro t a t' ha ⟨ht, hb⟩ hstep
    exact ⟨ht.step ha hstep, hstep.begun ht.lawful ht.coupled ha hb⟩
  exact hboth.2

/-- What is authorised was unsent, and may be sent from then on. -/
theorem Step.begins (h : Step s (.work (.begin intentId)) s') :
    ¬ s.db.Begun intentId ∧ s'.db.Begun intentId := by
  cases h with
  | work h =>
      cases h with
      | begin h =>
          obtain ⟨row, i, hlocked, hready, hcases⟩ := Submissions.begin_spec h
          refine ⟨?_, ?_⟩
          · rintro ⟨i', hi', hbegun⟩
            obtain rfl := Option.some.inj ((Submissions.locked_spec hlocked).1.symm.trans hi')
            exact hbegun hready
          · rcases hcases with ⟨-, found, u, db₁, payload, -, -, -, rfl⟩ | ⟨-, -, -, -, rfl⟩
            · exact ⟨_, AList.lookup_insert _, by simp⟩
            · exact ⟨_, AList.lookup_insert _, by simp⟩

/-! ## The two tables -/

end Sys

/-- How the intent of a reservation's precommit and the reservation fit together. -/
structure Db.Matched (db : Db) (id : Uuid) (r : Reservation) (intentId : Uuid)
    (i : ProtocolIntent) : Prop where
  alone : ∀ {k j}, db.work.protocolOutbox.lookup k = some j → j.PrecommitOf id → k = intentId
  ready : i.state = .ready ↔ r.state = .reserved
  uncertain : i.state = .uncertain →
    r.state = .uncertain ∧ db.work.precommitReceipts.lookup id = none
  accepted : (r.state = .accepted ∨ r.state = .active ∨ r.state = .verificationFailed ∨
      r.state = .expired) ∨ r.benchmarkId.isSome →
    i.state = .accepted ∧ ∃ x, db.work.precommitReceipts.lookup id = some x ∧
      r.benchmarkId = some x.benchmarkId
  rejected : i.state = .rejected ↔ r.state = .rejected
  cancelled : i.state = .cancelled → r.state = .cancelled ∧ i.sentAt = none ∧
    (id, .potentiallySent) ∉ db.work.reservationEvents

theorem Db.Coupled.matched {db : Db} (hc : db.Coupled) {id : Uuid} {r : Reservation}
    (hr : db.funds.reservations.lookup id = some r) (hshape : r.Shape) :
    ∃ intentId i, db.work.protocolOutbox.lookup intentId = some i ∧ i.PrecommitOf id ∧
      db.Matched id r intentId i := by
  obtain ⟨intentId, i, hi, rfl, hkind⟩ := hc.intent hr
  refine ⟨intentId, i, hi, ⟨rfl, hkind⟩, ?_⟩
  have hcouples := (hc.couples hi hkind hr).2
  have hunnamed := hshape.unnamed
  have halone : ∀ {k j}, db.work.protocolOutbox.lookup k = some j →
      j.PrecommitOf i.reservationId → k = intentId := fun hj hof =>
    hc.unique hj hi hof.reservationId (hof.kind.trans hkind.symm)
  have haccepted : (r.state = .accepted ∨ r.state = .active ∨ r.state = .verificationFailed ∨
      r.state = .expired) ∨ r.benchmarkId.isSome → i.state = .accepted ∧
      ∃ x, db.work.precommitReceipts.lookup i.reservationId = some x ∧
        r.benchmarkId = some x.benchmarkId := fun hnamed =>
    hcouples.named hshape (hnamed.elim hshape.named fun hsome => hsome)
  cases hstate : i.state with
  | ready =>
      simp only [Db.Couples, hstate] at hcouples
      exact ⟨halone, by simp [hstate, hcouples], by simp [hstate], haccepted,
        by simp [hstate, hcouples], by simp [hstate]⟩
  | uncertain =>
      simp only [Db.Couples, hstate] at hcouples
      exact ⟨halone, by simp [hstate, hcouples], fun _ => ⟨hcouples.1, hcouples.2.1⟩, haccepted,
        by simp [hstate, hcouples], by simp [hstate]⟩
  | accepted =>
      simp only [Db.Couples, hstate] at hcouples
      obtain ⟨x, -, hcouples⟩ := hcouples
      have hnot : r.state ≠ .reserved ∧ r.state ≠ .rejected := by
        rcases hcouples with hs | hb
        · rw [hs]
          exact ⟨by decide, by decide⟩
        · refine ⟨fun hs => ?_, fun hs => ?_⟩
          · rw [hunnamed (.inl hs)] at hb
            cases hb
          · rw [hunnamed (.inr (.inr hs))] at hb
            cases hb
      exact ⟨halone, by simp [hstate, hnot], by simp [hstate], haccepted,
        by simp [hstate, hnot], by simp [hstate]⟩
  | rejected =>
      simp only [Db.Couples, hstate] at hcouples
      exact ⟨halone, by simp [hstate, hcouples], by simp [hstate], haccepted,
        by simp [hstate, hcouples], by simp [hstate]⟩
  | cancelled =>
      simp only [Db.Couples, hstate] at hcouples
      refine ⟨halone, by simp [hstate, hcouples], by simp [hstate], haccepted,
        by simp [hstate, hcouples], fun _ => ⟨hcouples.1, hcouples.2.2.2.1, ?_⟩⟩
      exact AList.lookup_eq_none.mp hcouples.2.2.2.2

/-! ## What releases the money -/

/-- What is returned as unhanded was accepted, and not handed over. -/
theorem releaseUnhanded_open {db db' : Db} {identity out : Uuid} {row : Reservation}
    {actor reason eventKey : String}
    (h : releaseUnhanded db identity actor reason eventKey = .ok (db', out))
    (hrow : db.funds.reservations.lookup identity = some row)
    (hchanged : db'.funds.reservations.lookup identity ≠ some row) :
    row.state = .accepted ∧ row.handedOverAt = none := by
  simp only [releaseUnhanded, lockedReservation, bind_eq_ok, require_eq_ok, exists_const,
    fetch_eq_ok, hrow, Option.some.injEq, exists_eq_left'] at h
  obtain ⟨-, h⟩ := h
  split at h
  next =>
    simp only [bind_eq_ok, pure_eq_ok, Prod.mk.injEq] at h
    obtain ⟨db₁, hevent, rfl, -⟩ := h
    rw [event_funds hevent] at hchanged
    exact absurd hrow hchanged
  next =>
    simp only [bind_eq_ok, require_eq_ok, exists_const] at h
    obtain ⟨⟨hstate, -, -⟩, hhanded, -⟩ := h
    exact ⟨hstate, hhanded⟩

namespace Sys

/-- The transactions that may release the collateral of work which was possibly sent: TIG
refused it and there is no receipt, its assignment never reached the member, or it is over
and its round is settled. -/
inductive Releases (s : Sys) (id : Uuid) : Action → Prop
  | refused {intentId : Uuid} {i : ProtocolIntent} {r : Reservation} :
      s.db.work.protocolOutbox.lookup intentId = some i → i.PrecommitOf id →
      i.state = .uncertain → s.db.work.precommitReceipts.lookup id = none →
      s.db.funds.reservations.lookup id = some r → r.state = .uncertain →
      Releases s id (.work (.definitiveRejection intentId))
  | unhanded {r : Reservation} : s.db.funds.reservations.lookup id = some r →
      r.state = .accepted → r.handedOverAt = none → Releases s id (.funds (.releaseUnhanded id))
  | finalized {r : Reservation} : s.db.funds.reservations.lookup id = some r →
      (r.state = .active ∨ r.state = .verificationFailed ∨ r.state = .expired) →
      Releases s id (.funds (.finalizeCollateral id))

/-- The transactions that may spend or release the fee of work which was possibly sent. -/
inductive Charges (s : Sys) (id : Uuid) : Action → Prop
  | refused {intentId : Uuid} {i : ProtocolIntent} {r : Reservation} :
      s.db.work.protocolOutbox.lookup intentId = some i → i.PrecommitOf id →
      i.state = .uncertain → s.db.work.precommitReceipts.lookup id = none →
      s.db.funds.reservations.lookup id = some r → r.state = .uncertain →
      Charges s id (.work (.definitiveRejection intentId))
  | published {x : PrecommitReceipt} : s.db.work.precommitReceipts.lookup id = some x →
      Charges s id (.work (.publishAssignment id))

variable {s s' : Sys} {a : Action} {id : Uuid} {r r' : Reservation}

/-- The precommit of the reservation is not unsent any more. -/
def Sent (s : Sys) (id : Uuid) : Prop :=
  ∀ intentId i, s.db.work.protocolOutbox.lookup intentId = some i → i.PrecommitOf id →
    i.state ≠ .ready

/-- A transaction that ends work before it is accepted refuses it, if it was possibly sent. -/
theorem Step.refused (hc : s.db.Coupled) (h : Step s a s') {member : Uuid}
    (hdoes : a.does s.db (.unstarted id member)) (ha : Whole s a)
    (hr : s.db.funds.reservations.lookup id = some r) (hsent : s.Sent id)
    (hchanged : s'.db.funds.reservations.lookup id ≠ some r) :
    ∃ intentId i, a = .work (.definitiveRejection intentId) ∧
      s.db.work.protocolOutbox.lookup intentId = some i ∧ i.PrecommitOf id ∧
      i.state = .uncertain ∧ s.db.work.precommitReceipts.lookup id = none ∧
      r.state = .uncertain := by
  cases a with
  | funds a =>
      cases a with
      | releaseUnstarted => exact absurd (ha _ rfl) (by simp [FundsPart])
      | _ => simp [Action.does, FundsAction.does, Change.Quiet] at hdoes
  | work a =>
      cases a with
      | cancelUnsent intentId =>
          cases h with
          | work h =>
              cases h with
              | cancelUnsent h =>
                  simp only [Action.does, WorkAction.does, Change.Quiet, false_or] at hdoes
                  obtain ⟨row, i, hlocked, heq⟩ := hdoes
                  obtain ⟨rfl, -⟩ := Change.unstarted.inj heq
                  simp only [Submissions.cancelUnsent, bind_eq_ok, require_eq_ok, exists_const,
                    hlocked, Except.ok.injEq, exists_eq_left'] at h
                  obtain ⟨-, h⟩ := h
                  split at h
                  next =>
                    obtain rfl := Except.ok.inj h
                    exact absurd hr hchanged
                  next =>
                    simp only [bind_eq_ok, require_eq_ok, exists_const] at h
                    obtain ⟨⟨hready, hkind⟩, -⟩ := h
                    exact absurd hready
                      (hsent _ _ (Submissions.locked_spec hlocked).1 ⟨rfl, hkind⟩)
      | definitiveRejection intentId =>
          cases h with
          | work h =>
              cases h with
              | definitiveRejection h =>
                  simp only [Action.does, WorkAction.does, Change.Quiet, false_or] at hdoes
                  obtain ⟨row, i, hlocked, heq⟩ := hdoes
                  obtain ⟨rfl, -⟩ := Change.unstarted.inj heq
                  simp only [Submissions.definitiveRejection, bind_eq_ok, require_eq_ok,
                    exists_const, hlocked, Except.ok.injEq, exists_eq_left'] at h
                  obtain ⟨-, ⟨hkind, hun⟩, hreceipt, -⟩ := h
                  have hi := (Submissions.locked_spec hlocked).1
                  exact ⟨intentId, i, rfl, hi, ⟨rfl, hkind⟩, hun,
                    AList.lookup_eq_none.mpr hreceipt,
                    (hc.uncertain_of_uncertain hi hkind hr hun).1⟩
      | _ => simp [Action.does, WorkAction.does, Change.Quiet] at hdoes
  | _ => simp [Action.does, Change.Quiet] at hdoes

/-- Collateral that is resolved while the state stays is that of work which is over. -/
theorem Step.ended (hs : s.Lawful) (h : Step s a s')
    (hr : s.db.funds.reservations.lookup id = some r)
    (hr' : s'.db.funds.reservations.lookup id = some r')
    (hne : r'.collateralOutcome ≠ r.collateralOutcome)
    (hstays : ∀ c before after, a.does s.db c → ¬ c.Shifts id before after) :
    r.state = .active ∨ r.state = .verificationFailed ∨ r.state = .expired := by
  obtain ⟨r₁, hr₁, hstate⟩ := (h.path hs).states (P := fun state => state = r.state) hr rfl
    fun c before after hc _ hshift => absurd hshift (hstays c before after hc)
  obtain rfl := Option.some.inj (hr₁.symm.trans hr')
  have hx := (h.extends hs).reservation hr
  obtain ⟨r₂, hr₂, hx⟩ := hx
  obtain rfl := Option.some.inj (hr₂.symm.trans hr')
  have hshape := (hs.funds.rows.reservation hr).shape
  have hshape' := ((hs.step h).funds.rows.reservation hr').shape
  have hnone : r.collateralOutcome = none := by
    cases ho : r.collateralOutcome with
    | none => rfl
    | some o => exact absurd ((hx.outcome o ho).trans ho.symm) hne
  rw [hnone] at hne
  obtain ⟨o, ho⟩ := Option.ne_none_iff_exists'.mp hne
  rw [← hstate]
  rcases hshape'.outcome_cases ho with ⟨-, -, hends⟩ | ⟨-, -, -, hends⟩
  · rw [hstate] at hends
    rcases hends with hs' | hs' <;> simp [Reservation.Shape, hs', hnone] at hshape
  · exact hends

/-- The collateral of work that was possibly sent is released by these transactions alone. -/
theorem Step.releases (hs : s.Lawful) (hc : s.db.Coupled) (ha : Whole s a) (h : Step s a s')
    (hr : s.db.funds.reservations.lookup id = some r)
    (hr' : s'.db.funds.reservations.lookup id = some r')
    (hsent : s.Sent id) (hne : r'.collateralOutcome ≠ r.collateralOutcome) : Releases s id a := by
  have hchanged : s'.db.funds.reservations.lookup id ≠ some r := by
    rw [hr']
    rintro ⟨⟩
    exact hne rfl
  obtain ⟨r₁, hr₁, houtcome, -⟩ := (h.path hs).money hr
  obtain rfl := Option.some.inj (hr₁.symm.trans hr')
  obtain ⟨c, hdoes, hreleases⟩ := houtcome.resolve_left hne
  cases c with
  | unstarted i member =>
      obtain rfl : i = id := hreleases
      obtain ⟨intentId, i, rfl, hi, hof, hun, hnone, hstate⟩ :=
        h.refused hc hdoes ha hr hsent hchanged
      exact .refused hi hof hun hnone hr hstate
  | unhanded i member =>
      obtain rfl : i = id := hreleases
      cases a with
      | funds a =>
          cases a with
          | releaseUnhanded id' =>
              simp only [Action.does, FundsAction.does, Change.Quiet, false_or] at hdoes
              obtain ⟨m, heq, -⟩ := hdoes
              obtain ⟨rfl, -⟩ := Change.unhanded.inj heq
              cases h with
              | funds h =>
                  cases h with
                  | releaseUnhanded h =>
                      obtain ⟨hstate, hhanded⟩ := releaseUnhanded_open h hr hchanged
                      exact .unhanded hr hstate hhanded
          | _ => simp [Action.does, FundsAction.does, Change.Quiet] at hdoes
      | work a => cases a <;> simp [Action.does, WorkAction.does, Change.Quiet] at hdoes
      | _ => simp [Action.does, Change.Quiet] at hdoes
  | finalized i destination =>
      obtain rfl : i = id := hreleases
      cases a with
      | funds a =>
          cases a with
          | finalizeCollateral id' =>
              simp only [Action.does, FundsAction.does, Change.Quiet, false_or] at hdoes
              obtain ⟨_, heq⟩ := hdoes
              obtain ⟨rfl, -⟩ := Change.finalized.inj heq
              refine .finalized hr (h.ended hs hr hr' hne ?_)
              rintro c before after (hquiet | ⟨_, rfl⟩) hshift
              · cases c <;> first | exact hshift.elim | exact hquiet.elim
              · exact hshift.elim
          | _ => simp [Action.does, FundsAction.does, Change.Quiet] at hdoes
      | work a => cases a <;> simp [Action.does, WorkAction.does, Change.Quiet] at hdoes
      | _ => simp [Action.does, Change.Quiet] at hdoes
  | _ => exact hreleases.elim

/-- The fee of work that was possibly sent is spent or released by these alone. -/
theorem Step.charges (hs : s.Lawful) (hc : s.db.Coupled) (ha : Whole s a) (h : Step s a s')
    (hr : s.db.funds.reservations.lookup id = some r)
    (hr' : s'.db.funds.reservations.lookup id = some r')
    (hsent : s.Sent id) (hne : r'.feeActual ≠ r.feeActual) : Charges s id a := by
  have hchanged : s'.db.funds.reservations.lookup id ≠ some r := by
    rw [hr']
    rintro ⟨⟩
    exact hne rfl
  obtain ⟨r₁, hr₁, -, hfee⟩ := (h.path hs).money hr
  obtain rfl := Option.some.inj (hr₁.symm.trans hr')
  obtain ⟨c, hdoes, hcharges⟩ := hfee.resolve_left hne
  cases c with
  | unstarted i member =>
      obtain rfl : i = id := hcharges
      obtain ⟨intentId, i, rfl, hi, hof, hun, hnone, hstate⟩ :=
        h.refused hc hdoes ha hr hsent hchanged
      exact .refused hi hof hun hnone hr hstate
  | accepted i =>
      obtain rfl : i = id := hcharges
      cases a with
      | funds a =>
          cases a with
          | accept => exact absurd (ha _ rfl) (by simp [FundsPart])
          | _ => simp [Action.does, FundsAction.does, Change.Quiet] at hdoes
      | work a =>
          cases a with
          | publishAssignment id' =>
              simp only [Action.does, WorkAction.does, Change.Quiet, false_or] at hdoes
              obtain rfl := Change.accepted.inj hdoes
              cases h with
              | work h =>
                  cases h with
                  | publishAssignment h =>
                      simp only [Submissions.publishAssignment, bind_eq_ok, require_eq_ok,
                        exists_const, fetch_eq_ok] at h
                      obtain ⟨row, -, payload, -, ⟨benchmarkId, fee⟩, -, x, hx, -⟩ := h
                      exact .published hx
          | _ => simp [Action.does, WorkAction.does, Change.Quiet] at hdoes
      | _ => simp [Action.does, Change.Quiet] at hdoes
  | _ => exact hcharges.elim

end Sys

/-- Without corrections, the accounts of a reservation are what its row says. -/
theorem reservation_balances {s : Sys} (h : Sys.Reachable Sys.Serves s) {id : Uuid}
    {r : Reservation} (hr : s.db.funds.reservations.lookup id = some r) :
    s.db.funds.ledger.balance (held id)
        = (if r.collateralOutcome = none then (r.amount : ℤ) else 0) ∧
      s.db.funds.ledger.balance (committedFee id)
        = if r.feeActual = none then (r.feeLimit : ℤ) else 0 := by
  obtain ⟨s₀, h₀, hrun⟩ := h
  have hs : Sys.Reachable Sys.Uncorrected s := ⟨s₀, h₀, hrun.mono fun _ _ ha => ha.2⟩
  have hrows := hs.lawful.funds.rows
  rw [hs.reconciled _ ⟨by simp, by simp⟩, hs.reconciled _ ⟨by simp, by simp⟩,
    Funds.booked_held hrows hr, Funds.booked_committed hrows hr]
  exact ⟨rfl, rfl⟩

/-! ## Coordinators -/

/-- A run of the service with its coordinators: which intents `begin` has authorised, for
which a coordinator has the authorisation in hand, and which were posted.  Coordinators begin
and post in any order; one that stops between the two never posts. -/
inductive Coordinated : Sys → List Uuid → List Uuid → List Uuid → Prop
  | start {s : Sys} : s.Initial → Coordinated s [] [] []
  | step {s s' : Sys} {a : Action} {authorised inHand posted : List Uuid} :
      Coordinated s authorised inHand posted → s.Serves a → (∀ i, a ≠ .work (.begin i)) →
      Sys.Step s a s' → Coordinated s' authorised inHand posted
  | begin {s s' : Sys} {i : Uuid} {authorised inHand posted : List Uuid} :
      Coordinated s authorised inHand posted → Sys.Step s (.work (.begin i)) s' →
      Coordinated s' (i :: authorised) (i :: inHand) posted
  | post {s : Sys} {i : Uuid} {authorised before after posted : List Uuid} :
      Coordinated s authorised (before ++ i :: after) posted →
      Coordinated s authorised (before ++ after) (i :: posted)
  | stop {s : Sys} {i : Uuid} {authorised before after posted : List Uuid} :
      Coordinated s authorised (before ++ i :: after) posted →
      Coordinated s authorised (before ++ after) posted

namespace Coordinated

variable {s : Sys} {authorised inHand posted : List Uuid}

theorem reachable (h : Coordinated s authorised inHand posted) : Sys.Reachable Sys.Serves s := by
  induction h with
  | start hs => exact ⟨_, hs, .refl⟩
  | step _ ha _ hstep ih => exact ih.step ha hstep
  | begin _ hstep ih => exact ih.step Sys.serves_work hstep
  | post _ ih => exact ih
  | stop _ ih => exact ih

theorem whole (h : Coordinated s authorised inHand posted) : Sys.Reachable Sys.Whole s := by
  obtain ⟨s₀, h₀, hrun⟩ := h.reachable
  exact ⟨s₀, h₀, hrun.mono fun _ _ ha => ha.1⟩

theorem of_reachable
    (h : Sys.Reachable (fun s a => s.Serves a ∧ ∀ i, a ≠ .work (.begin i)) s) :
    Coordinated s [] [] [] := by
  obtain ⟨s₀, h₀, hrun⟩ := h
  induction hrun with
  | refl => exact .start h₀
  | step _ ha hstep ih => exact ih.step ha.1 ha.2 hstep

/-- What was authorised has begun. -/
theorem begun (h : Coordinated s authorised inHand posted) {i : Uuid} (hi : i ∈ authorised) :
    s.db.Begun i := by
  induction h with
  | start => cases hi
  | step h ha _ hstep ih => exact hstep.begun h.whole.lawful h.whole.coupled ha.1 (ih hi)
  | begin h hstep ih =>
      rcases List.mem_cons.mp hi with rfl | hi
      · exact hstep.begins.2
      · exact hstep.begun h.whole.lawful h.whole.coupled Sys.serves_work.1 (ih hi)
  | post _ ih => exact ih hi
  | stop _ ih => exact ih hi

theorem authorised_once (h : Coordinated s authorised inHand posted) : authorised.Nodup := by
  induction h with
  | start => exact List.nodup_nil
  | step _ _ _ _ ih => exact ih
  | begin h hstep ih =>
      exact List.nodup_cons.mpr ⟨fun hi => hstep.begins.1 (h.begun hi), ih⟩
  | post _ ih => exact ih
  | stop _ ih => exact ih

/-- What is in hand and what was posted was authorised, each for itself. -/
theorem accounted (h : Coordinated s authorised inHand posted) :
    (inHand ++ posted).Subperm authorised := by
  induction h with
  | start => exact List.Subperm.refl _
  | step _ _ _ _ ih => exact ih
  | begin _ _ ih => exact (List.subperm_cons _).mpr ih
  | @post s i authorised before after posted _ ih =>
      refine List.Perm.subperm ?_ |>.trans ih
      simp only [List.append_assoc, List.cons_append]
      exact List.Perm.append_left before List.perm_middle
  | @stop s i authorised before after posted _ ih =>
      refine List.Sublist.subperm ?_ |>.trans ih
      simp only [List.append_assoc, List.cons_append]
      exact List.Sublist.append_left (List.sublist_cons_self ..) before

end Coordinated

/-- However coordinators interleave and stop, each intent is authorised for a POST at most
once, and posted at most once; none returns to `ready`.  The intent of each precommit and its
reservation stay coupled.  And what a precommit that was possibly sent holds is moved by the
listed transactions alone. -/
theorem one_send_per_intent {s : Sys} {authorised inHand posted : List Uuid}
    (h : Coordinated s authorised inHand posted) :
    (authorised.Nodup ∧ posted.Nodup ∧ (∀ i ∈ posted, i ∈ authorised) ∧
      ∀ i ∈ authorised, s.db.Begun i) ∧
    (∀ i s', s.db.Begun i → Leads Sys.Step Sys.Whole s s' → s'.db.Begun i) ∧
    (∀ id r, s.db.funds.reservations.lookup id = some r →
      ∃ intentId i, s.db.work.protocolOutbox.lookup intentId = some i ∧ i.PrecommitOf id ∧
        s.db.Matched id r intentId i) ∧
    ∀ a s' id, s.Serves a → Sys.Step s a s' → id ∈ s.db.funds.reservations → s.Sent id →
      (s'.db.funds.ledger.balance (held id) = s.db.funds.ledger.balance (held id) ∨
        s.Releases id a) ∧
      (s'.db.funds.ledger.balance (committedFee id)
          = s.db.funds.ledger.balance (committedFee id) ∨ s.Charges id a) := by
  have hs := h.whole.lawful
  have hc := h.whole.coupled
  have hnodup : (inHand ++ posted).Nodup := by
    obtain ⟨l, hperm, hsub⟩ := h.accounted
    exact hperm.nodup_iff.mp (hsub.nodup h.authorised_once)
  refine ⟨⟨h.authorised_once, hnodup.of_append_right, fun i hi => ?_, fun i => h.begun⟩,
    fun i s' hbegun hrun => Sys.run_begun h.whole hrun hbegun,
    fun id r hr => hc.matched hr (hs.funds.rows.reservation hr).shape,
    fun a s' id ha hstep hid hsent => ?_⟩
  · exact h.accounted.subset (List.mem_append_right _ hi)
  · obtain ⟨r, hr⟩ := Option.isSome_iff_exists.mp (AList.lookup_isSome.mpr hid)
    obtain ⟨r', hr', hx⟩ := (hstep.extends hs).reservation hr
    obtain ⟨hheld, hfee⟩ := reservation_balances h.reachable hr
    obtain ⟨hheld', hfee'⟩ := reservation_balances (h.reachable.step ha hstep) hr'
    refine ⟨?_, ?_⟩
    · by_cases hsame : r'.collateralOutcome = r.collateralOutcome
      · rw [hheld, hheld', hsame, hx.amount]
        exact .inl rfl
      · exact .inr (hstep.releases hs hc ha.1 hr hr' hsent hsame)
    · by_cases hsame : r'.feeActual = r.feeActual
      · have hlimit := congrArg Reservation.feeLimit hx.terms
        change r'.feeLimit = r.feeLimit at hlimit
        rw [hfee, hfee', hsame, hlimit]
        exact .inl rfl
      · exact .inr (hstep.charges hs hc ha.1 hr hr' hsent hsame)

/-- The precommit of the day of responses was authorised, and posted. -/
theorem one_send_per_intent_posted : Coordinated ResponseDay.sent ["intent"] [] ["intent"] ∧
    ResponseDay.sent.db.Begun "intent" ∧
    ∀ id r, ResponseDay.sent.db.funds.reservations.lookup id = some r →
      ∃ intentId i, ResponseDay.sent.db.work.protocolOutbox.lookup intentId = some i ∧
        i.PrecommitOf id ∧ ResponseDay.sent.db.Matched id r intentId i := by
  have hposted : Coordinated ResponseDay.sent ["intent"] [] ["intent"] := by
    obtain ⟨s, hs, hbegin⟩ := @ResponseDay.sending
      (fun s a => s.Serves a ∧ ∀ i, a ≠ .work (.begin i)) fun _ _ ha hne => ⟨ha, hne⟩
    exact @Coordinated.post _ _ _ [] [] [] ((Coordinated.of_reachable hs).begin hbegin)
  have hall := one_send_per_intent hposted
  exact ⟨hposted, hall.1.2.2.2 "intent" (List.mem_singleton_self _), hall.2.2.1⟩

end TigPool
