/-
# `TigPool.Lawful` — what every row of the funds looks like

The state column of a row decides what its other columns can be.  Each `Lawful`
predicate is that table for one kind of row; made rows satisfy it and turning
preserves it, so the rows of any state the funds can reach do.
-/
import TigPool.Rows

namespace TigPool

open Basis

/-! ## Reservations -/

/-- What the other columns of a reservation are, by its state. -/
def Reservation.Shape (r : Reservation) : Prop :=
  match r.state with
  | .reserved | .uncertain =>
      r.slotHeld = true ∧ r.feeActual = none ∧ r.collateralOutcome = none ∧
        r.benchmarkId = none ∧ r.handedOverAt = none ∧ r.activeAtHeight = none ∧
        r.finalization = none
  | .accepted =>
      r.slotHeld = true ∧ r.feeActual.isSome ∧ r.collateralOutcome = none ∧
        r.benchmarkId.isSome ∧ r.activeAtHeight = none ∧ r.finalization = none
  | .rejected =>
      r.slotHeld = false ∧ r.feeActual.isSome ∧ r.collateralOutcome = some .returned ∧
        r.benchmarkId = none ∧ r.handedOverAt = none ∧ r.activeAtHeight = none ∧
        r.finalization = none
  | .cancelled =>
      r.slotHeld = false ∧ r.feeActual.isSome ∧ r.collateralOutcome = some .returned ∧
        r.handedOverAt = none ∧ r.activeAtHeight = none ∧ r.finalization = none
  | .active =>
      r.slotHeld = false ∧ r.feeActual.isSome ∧ r.benchmarkId.isSome ∧ r.handedOverAt.isSome ∧
        r.activeAtHeight.isSome ∧ r.collateralOutcome = r.finalization.map (·.outcome)
  | .verificationFailed =>
      r.slotHeld = false ∧ r.feeActual.isSome ∧ r.benchmarkId.isSome ∧ r.handedOverAt.isSome ∧
        r.activeAtHeight = none ∧ r.collateralOutcome = r.finalization.map (·.outcome)
  | .expired =>
      r.slotHeld = false ∧ r.feeActual.isSome ∧ r.benchmarkId.isSome ∧
        r.activeAtHeight = none ∧ r.collateralOutcome = r.finalization.map (·.outcome)

structure Reservation.Lawful (r : Reservation) : Prop where
  shape : r.Shape
  /-- The amount is the base times the multiplier frozen with it, rounded up. -/
  amount : (r.amount : ℤ) = ⌈(r.baseAmount : ℚ) * r.multiplier.value⌉
  finalization : ∀ c, r.finalization = some c → c.amount = r.amount

theorem Reservation.Fresh.lawful {r : Reservation} (h : r.Fresh) : r.Lawful where
  shape := by
    simp [Reservation.Shape, h.state, h.slotHeld, h.feeActual, h.outcome, h.benchmarkId,
      h.handedOverAt, h.activeAtHeight, h.finalization]
  amount := h.amount
  finalization := by
    intro c hc
    rw [h.finalization] at hc
    cases hc

theorem Reservation.Shape.turns {r r' : Reservation} (h : r.Shape) (ht : r.Turns r') :
    r'.Shape := by
  cases ht with
  | progressed hp =>
      cases hp with
      | submitting hstate => simpa [Reservation.Shape, hstate] using h
      | handedOver hstate => simpa [Reservation.Shape, hstate] using h
      | @outcome o height hstate hhanded =>
          simp only [Reservation.Shape, hstate] at h
          cases o <;> simp_all [Reservation.Shape, DefinitiveOutcome.state]
  | accepted hstate =>
      simp only [Reservation.Shape, hstate] at h
      simp [Reservation.Shape, h]
  | unstarted hstate =>
      rcases hstate with ⟨hstate, rfl⟩ | ⟨hstate, rfl⟩ <;>
        simp only [Reservation.Shape, hstate] at h <;> simp [Reservation.Shape, h]
  | unhanded hstate hhanded =>
      simp only [Reservation.Shape, hstate] at h
      simp [Reservation.Shape, h, hhanded]
  | finalized hstate =>
      rcases hstate with hstate | hstate | hstate <;>
        simp only [Reservation.Shape, hstate] at h <;> simp [Reservation.Shape, hstate, h]

theorem Reservation.Lawful.turns {r r' : Reservation} (h : r.Lawful) (ht : r.Turns r') :
    r'.Lawful where
  shape := h.shape.turns ht
  amount := by
    cases ht with
    | progressed hp => cases hp <;> exact h.amount
    | _ => exact h.amount
  finalization := by
    cases ht with
    | progressed hp => cases hp <;> exact h.finalization
    | finalized _ _ hamount =>
        rintro _ ⟨⟩
        exact hamount
    | _ => exact h.finalization

namespace Reservation.Shape

variable {r : Reservation}

/-- The slot is held exactly while the work is under way. -/
theorem slotHeld_iff (h : r.Shape) :
    r.slotHeld = true ↔ (r.state = .reserved ∨ r.state = .uncertain ∨ r.state = .accepted) := by
  unfold Shape at h
  cases hs : r.state <;> simp_all

/-- Before it is accepted, nothing about a reservation is decided. -/
theorem of_unaccepted (h : r.Shape) (hs : r.state = .reserved ∨ r.state = .uncertain) :
    r.feeActual = none ∧ r.collateralOutcome = none ∧ r.benchmarkId = none := by
  rcases hs with hs | hs <;> simp_all [Shape]

theorem of_accepted (h : r.Shape) (hs : r.state = .accepted) :
    r.feeActual.isSome ∧ r.collateralOutcome = none ∧ r.benchmarkId.isSome := by
  simp_all [Shape]

/-- A resolved reservation has a final state; a definite end of the work is resolved
by a finalization. -/
theorem outcome_cases (h : r.Shape) {o : CollateralOutcome} (ho : r.collateralOutcome = some o) :
    (o = .returned ∧ r.finalization = none ∧ (r.state = .rejected ∨ r.state = .cancelled)) ∨
      (∃ c, r.finalization = some c ∧ c.outcome = o ∧
        (r.state = .active ∨ r.state = .verificationFailed ∨ r.state = .expired)) := by
  unfold Shape at h
  cases hs : r.state <;> cases hf : r.finalization <;> simp_all

theorem finalization_iff (h : r.Shape) {c : CollateralFinalization}
    (hc : r.finalization = some c) : r.collateralOutcome = some c.outcome := by
  unfold Shape at h
  cases hs : r.state <;> simp_all

end Reservation.Shape

/-! ## Transfers and rounds -/

structure Transfer.Lawful (t : Transfer) : Prop where
  /-- A round reward is attributed to its round; any other receipt is a deposit. -/
  destination : ∀ a, t.attribution = some a →
    (depositDestination a.destination ∧ t.roundReceipt = none) ∨
      ∃ r, t.roundReceipt = some r ∧ a.destination = pot r.round ∧ r.amount = t.amount
  receipt : t.attribution = none → t.roundReceipt = none

theorem Transfer.Unclaimed.lawful {t : Transfer} (h : t.Unclaimed) : t.Lawful where
  destination := by
    intro a ha
    rw [h.attribution] at ha
    cases ha
  receipt _ := h.roundReceipt

theorem Transfer.Lawful.turns {t t' : Transfer} (h : t.Lawful) (ht : t.Turns t') : t'.Lawful := by
  cases ht with
  | attributed hnone hdest =>
      refine ⟨?_, fun hn => by cases hn⟩
      rintro _ ⟨⟩
      exact Or.inl ⟨hdest, h.receipt hnone⟩
  | rewarded hnone hdest hamount =>
      refine ⟨?_, fun hn => by cases hn⟩
      rintro _ ⟨⟩
      exact Or.inr ⟨_, rfl, hdest, hamount⟩

structure RoundEarnings.Lawful (e : RoundEarnings) : Prop where
  reimbursement : ∀ r, e.reimbursement = some r → r.amount = e.withheldOperatingCost
  /-- A settlement gives away the whole pot, and takes from nobody. -/
  shares : ∀ s, e.settlement = some s → s.pot = (s.shares.map (·.2)).sum
  nonneg : ∀ s, e.settlement = some s → ∀ share ∈ s.shares, 0 ≤ share.2

theorem RoundEarnings.Declared.lawful {e : RoundEarnings} (h : e.Declared) : e.Lawful where
  reimbursement := by simp [h.reimbursement]
  shares := by simp [h.settlement]
  nonneg := by simp [h.settlement]

theorem RoundEarnings.Lawful.turns {e e' : RoundEarnings} (h : e.Lawful) (ht : e.Turns e') :
    e'.Lawful := by
  cases ht with
  | reimbursed _ hs =>
      refine ⟨?_, h.shares, h.nonneg⟩
      rintro _ ⟨⟩
      rfl
  | settled _ hsum hnonneg =>
      refine ⟨h.reimbursement, ?_, ?_⟩
      · rintro _ ⟨⟩
        exact hsum
      · rintro _ ⟨⟩
        exact hnonneg

/-! ## Withdrawals and top-ups -/

structure Withdrawal.Lawful (w : Withdrawal) : Prop where
  kind : w.kind = .operator ↔ w.memberId = none
  paidEvent : w.paidEvent.isSome ↔ w.state = .paid
  review : w.state = .approved ∨ w.state = .uncertain ∨ w.state = .paid → w.review.isSome

theorem Withdrawal.Fresh.lawful {w : Withdrawal} (h : w.Fresh) : w.Lawful where
  kind := h.kind
  paidEvent := by simp [h.paidEvent, h.state]
  review := by simp [h.state]

theorem Withdrawal.Lawful.turns {w w' : Withdrawal} (h : w.Lawful) (ht : w.Turns w') :
    w'.Lawful := by
  have hpaid : w.state ≠ .paid → w.paidEvent = none := fun hs => by
    simpa using (not_congr h.paidEvent).mpr hs
  cases ht with
  | approved hs => exact ⟨h.kind, by simp [hpaid (by simp [hs])], fun _ => rfl⟩
  | released hs hstate =>
      have hnone := hpaid (by rcases hs with hs | hs <;> simp [hs])
      rcases hstate with rfl | rfl <;> exact ⟨h.kind, by simp [hnone], by simp⟩
  | begun hs hr => exact ⟨h.kind, by simp [hpaid (by simp [hs])], fun _ => hr⟩
  | unpaid hs =>
      exact ⟨h.kind, by simp [hpaid (by simp [hs])], fun _ => h.review (Or.inr (Or.inl hs))⟩
  | paid hs => exact ⟨h.kind, by simp, fun _ => h.review (Or.inr (Or.inl hs))⟩

structure ProtocolTopup.Lawful (t : ProtocolTopup) : Prop where
  credit : t.credit.isSome ↔ t.state = .credited

theorem ProtocolTopup.Fresh.lawful {t : ProtocolTopup} (h : t.Fresh) : t.Lawful where
  credit := by simp [h.credit, h.state]

theorem ProtocolTopup.Lawful.turns {t t' : ProtocolTopup} (h : t.Lawful) (ht : t.Turns t') :
    t'.Lawful := by
  cases ht with
  | reconciled hs hstate =>
      have hnone : t.credit = none := by
        simpa using (not_congr h.credit).mpr (by simp [hs])
      refine ⟨?_⟩
      rcases hstate with rfl | rfl | rfl <;> simp [hnone]
  | credited => exact ⟨by simp⟩

/-! ## All rows -/

namespace Funds

structure LawfulRows (f : Funds) : Prop where
  reservation : ∀ {id r}, f.reservations.lookup id = some r → r.Lawful
  transfer : ∀ {e t}, f.transfers.lookup e = some t → t.Lawful
  earnings : ∀ {n e}, f.roundEarnings.lookup n = some e → e.Lawful
  withdrawal : ∀ {id w}, f.withdrawals.lookup id = some w → w.Lawful
  topup : ∀ {id t}, f.protocolTopups.lookup id = some t → t.Lawful
  /-- Transfers belong to the bound token. -/
  bound : ∀ {e t}, f.transfers.lookup e = some t → f.Bound e
  /-- Only incoming transfers are ever attributed. -/
  incoming : ∀ {e t}, f.transfers.lookup e = some t → t.attribution.isSome →
    t.incoming f.wallet = true
  /-- A review freezes a route out of custody. -/
  reviewed : ∀ {id w review}, f.withdrawals.lookup id = some w → w.review = some review →
    some review.sender = f.wallet
  /-- Sends leave from the custody wallet. -/
  route : ∀ {id s}, f.custodySends.lookup id = some s → some s.sender = f.wallet
  /-- There is no opening balance before the observer has started. -/
  unopened : f.chainStream = none → f.openingBaseline = none

theorem LawfulRows.empty : empty.LawfulRows where
  reservation h := by cases h
  transfer h := by cases h
  earnings h := by cases h
  withdrawal h := by cases h
  topup h := by cases h
  bound h := by cases h
  incoming h := by cases h
  reviewed h := by cases h
  route h := by cases h
  unopened _ := rfl

variable {f f' : Funds} {c : Change}

/-- The binding of custody is for ever. -/
theorem Step.custodyIdentity (h : Step f c f') {i : CustodyIdentity}
    (hi : f.custodyIdentity = some i) : f'.custodyIdentity = some i := by
  cases h with
  | custodyBound hnone =>
      rw [hnone] at hi
      cases hi
  | _ => exact hi

theorem Bound.wallet {e : EventId} (h : f.Bound e) :
    ∃ i, f.custodyIdentity = some i ∧ e.chainId = i.chainId ∧ e.token = i.token := by
  unfold Funds.Bound at h
  cases hi : f.custodyIdentity with
  | none => simp [hi] at h
  | some i => exact ⟨i, rfl, by simpa [hi] using h⟩

theorem Step.wallet (h : Step f c f') {e : EventId} (hb : f.Bound e) :
    f'.wallet = f.wallet ∧ f'.Bound e := by
  obtain ⟨i, hi, he⟩ := hb.wallet
  have hi' := h.custodyIdentity hi
  simp [Funds.wallet, Funds.Bound, hi, hi', he]

theorem Step.transfer_bound (h : Step f c f') (hl : f.LawfulRows) {e : EventId} {t : Transfer}
    (ht : f'.transfers.lookup e = some t) : f'.Bound e := by
  have hold : ∀ {e t}, f.transfers.lookup e = some t → f'.Bound e := fun hx =>
    (h.wallet (hl.bound hx)).2
  have hnew : ∀ {k t'}, f'.transfers = AList.insert k t' f.transfers → f.Bound k →
      f'.Bound e := by
    intro k t' heq hk
    rw [heq, Table.lookup_insert_eq] at ht
    split at ht
    next heq => rw [heq]; exact (h.wallet hk).2
    next => exact hold ht
  cases h with
  | transferSaved _ hb => exact hnew rfl hb
  | attributed hx => exact hnew rfl (hl.bound hx)
  | rewarded hx => exact hnew rfl (hl.bound hx)
  | _ => exact hold ht

theorem Step.transfer_incoming (h : Step f c f') (hl : f.LawfulRows) {e : EventId} {t : Transfer}
    (ht : f'.transfers.lookup e = some t) (ha : t.attribution.isSome) :
    t.incoming f'.wallet = true := by
  have hold : ∀ {e t}, f.transfers.lookup e = some t → t.attribution.isSome →
      t.incoming f'.wallet = true := fun hx hax => by
    rw [(h.wallet (hl.bound hx)).1]
    exact hl.incoming hx hax
  have hnew : ∀ {k t'}, f'.transfers = AList.insert k t' f.transfers →
      (t'.attribution.isSome → t'.incoming f'.wallet = true) → t.incoming f'.wallet = true := by
    intro k t' heq hk
    rw [heq, Table.lookup_insert_eq] at ht
    split at ht
    next =>
      obtain rfl := Option.some.inj ht
      exact hk ha
    next => exact hold ht ha
  cases h with
  | transferSaved _ _ hnone => exact hnew rfl (by simp [hnone])
  | attributed _ hin => exact hnew rfl fun _ => hin
  | rewarded _ hin => exact hnew rfl fun _ => hin
  | _ => exact hold ht ha

theorem Step.wallet_stays (h : Step f c f') {a : Address} (ha : some a = f.wallet) :
    some a = f'.wallet := by
  cases hi : f.custodyIdentity with
  | none => simp [Funds.wallet, hi] at ha
  | some i => rwa [Funds.wallet, h.custodyIdentity hi, ← hi]

theorem Step.withdrawal_reviewed (h : Step f c f') (hl : f.LawfulRows) {id : Uuid} {w : Withdrawal}
    {review : WithdrawalReview} (hw : f'.withdrawals.lookup id = some w)
    (hreview : w.review = some review) : some review.sender = f'.wallet := by
  have hold : ∀ {id w}, f.withdrawals.lookup id = some w → w.review = some review →
      some review.sender = f'.wallet := fun hw hr => h.wallet_stays (hl.reviewed hw hr)
  cases h with
  | requested _ _ _ hnone =>
      rcases Table.lookup_insert_cases hw with ⟨-, rfl⟩ | ⟨-, hw⟩
      · rw [hnone] at hreview
        cases hreview
      · exact hold hw hreview
  | approved _ _ _ _ hsender =>
      rcases Table.lookup_insert_cases hw with ⟨-, rfl⟩ | ⟨-, hw⟩
      · obtain rfl := Option.some.inj hreview
        exact hsender
      · exact hold hw hreview
  | released hw₀ | begun hw₀ | unpaid _ _ _ hw₀ | paid _ _ _ hw₀ =>
      rcases Table.lookup_insert_cases hw with ⟨-, rfl⟩ | ⟨-, hw⟩
      · exact hold hw₀ hreview
      · exact hold hw hreview
  | _ => exact hold hw hreview

theorem Step.send_route (h : Step f c f') (hl : f.LawfulRows) {id : Uuid} {s : CustodySend}
    (hs : f'.custodySends.lookup id = some s) : some s.sender = f'.wallet := by
  have hold : ∀ {id s}, f.custodySends.lookup id = some s → some s.sender = f'.wallet :=
    fun hs => h.wallet_stays (hl.route hs)
  have hroute : ∀ {id : Uuid} {s : CustodySend} {a : Address}, f.custodySends.lookup id = some s →
      a = s.sender → some a = f'.wallet := fun hs ha => ha ▸ hold hs
  cases h with
  | begun _ _ _ _ _ _ _ _ _ _ hsend | topupBegun _ _ _ hsend =>
      rcases Table.lookup_insert_cases hs with ⟨-, rfl⟩ | ⟨-, hs⟩
      · exact hsend.route
      · exact hold hs
  | unpaid _ _ _ _ _ hs₀ | paid _ _ _ _ _ hs₀ | topupReconciled _ _ hs₀ =>
      rcases Table.lookup_insert_cases hs with ⟨-, rfl⟩ | ⟨-, hs⟩
      · exact hroute hs₀ rfl
      · exact hold hs
  | _ => exact hold hs

theorem LawfulRows.step (hl : f.LawfulRows) (h : Step f c f') : f'.LawfulRows where
  reservation {id _} := (h.reservation id).keeps (fun _ => hl.reservation)
    (fun _ => Reservation.Fresh.lawful) (fun _ _ => Reservation.Lawful.turns) _
  transfer {e _} := (h.transfer e).keeps (fun _ => hl.transfer)
    (fun _ => Transfer.Unclaimed.lawful) (fun _ _ => Transfer.Lawful.turns) _
  earnings {n _} := (h.earnings n).keeps (fun _ => hl.earnings)
    (fun _ => RoundEarnings.Declared.lawful) (fun _ _ => RoundEarnings.Lawful.turns) _
  withdrawal {id _} := (h.withdrawal id).keeps (fun _ => hl.withdrawal)
    (fun _ => Withdrawal.Fresh.lawful) (fun _ _ => Withdrawal.Lawful.turns) _
  topup {id _} := (h.topup id).keeps (fun _ => hl.topup)
    (fun _ => ProtocolTopup.Fresh.lawful) (fun _ _ => ProtocolTopup.Lawful.turns) _
  bound := h.transfer_bound hl
  incoming := h.transfer_incoming hl
  reviewed := h.withdrawal_reviewed hl
  route := h.send_route hl
  unopened := by
    cases h with
    | streamOpened => exact fun hnone => by cases hnone
    | batchRecorded => exact fun hnone => by cases hnone
    | _ => exact hl.unopened

end Funds

end TigPool
