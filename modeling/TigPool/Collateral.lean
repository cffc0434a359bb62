/-
# `TigPool.Collateral` — the life of a reservation and its money

What is on the two accounts of a reservation can be read off its row: the collateral
until it is resolved, the fee ceiling until the fee is known.  It is resolved once,
by one journal, and what it amounts to was fixed when it was made.
-/
import TigPool.Positions

namespace TigPool

open Basis

namespace Funds

variable {f : Funds} {id : Uuid} {r : Reservation}

/-- Only its own row books anything on the collateral account of a reservation. -/
theorem booked_held (hf : f.LawfulRows) (hr : f.reservations.lookup id = some r) :
    f.booked (held id) = if r.collateralOutcome = none then (r.amount : ℤ) else 0 := by
  have hreservations : f.bookedReservations (held id)
      = if r.collateralOutcome = none then (r.amount : ℤ) else 0 := by
    rw [bookedReservations, Table.total_eq_single hr]
    · simp [Reservation.position, Reservation.collateralPosition, Reservation.feePosition,
        operatorFees]
    · intro id' r' hne _
      simp [Reservation.position, Reservation.collateralPosition, Reservation.feePosition,
        operatorFees, hne]
  rw [booked, hreservations, bookedTransfers_zero hf rfl, bookedEarnings_zero rfl,
    bookedWithdrawals_zero rfl, bookedAttempts_zero rfl, bookedTopups_zero rfl,
    bookedOpenings_zero rfl]
  simp

/-- Only its own row books anything on the commitment account of a reservation. -/
theorem booked_committed (hf : f.LawfulRows) (hr : f.reservations.lookup id = some r) :
    f.booked (committedFee id) = if r.feeActual = none then (r.feeLimit : ℤ) else 0 := by
  have hreservations : f.bookedReservations (committedFee id)
      = if r.feeActual = none then (r.feeLimit : ℤ) else 0 := by
    rw [bookedReservations, Table.total_eq_single hr]
    · simp [Reservation.position, Reservation.collateralPosition, Reservation.feePosition,
        operatorFees]
    · intro id' r' hne _
      simp [Reservation.position, Reservation.collateralPosition, Reservation.feePosition,
        operatorFees, hne]
  rw [booked, hreservations, bookedTransfers_zero hf rfl, bookedEarnings_zero rfl,
    bookedWithdrawals_zero rfl, bookedAttempts_zero rfl, bookedTopups_zero rfl,
    bookedOpenings_zero rfl]
  simp

end Funds

/-! ## Resolution -/

/-- The journals that can resolve a reservation. -/
def resolutions (id : Uuid) : List EventKey :=
  [.collateralReturn id, .unhandedReturn id, .finalize id]

/-- A journal that resolves a reservation moves the whole amount to where its outcome
says, and there is no other one. -/
structure ResolvedOnce (ledger : Ledger) (id : Uuid) (r : Reservation) : Prop where
  one : ∀ k ∈ resolutions id, ∀ k' ∈ resolutions id, k ∈ ledger.journals → k' ∈ ledger.journals →
    k = k'
  whole : ∀ k ∈ resolutions id, ∀ j, ledger.journals.lookup k = some j →
    ∃ o, r.collateralOutcome = some o ∧
      SameMoves j.amounts [(held id, -(r.amount : ℤ)), (r.destination o, (r.amount : ℤ))]

theorem Funds.Lawful.resolvedOnce {f : Funds} (hf : f.Lawful) {id : Uuid} {r : Reservation}
    (hr : f.reservations.lookup id = some r) : ResolvedOnce f.ledger id r := by
  have hshape := (hf.rows.reservation hr).shape
  have hrow : ∀ {r'}, f.reservations.lookup id = some r' → r' = r :=
    fun h => Option.some.inj (h.symm.trans hr)
  have hreturned : ∀ {m}, f.Grounds m (.collateralReturn id) → r.Unstarted ∧
      SameMoves m (resolveMovements id r (available r.memberId)) := by
    rintro m ⟨r', hr', h⟩
    rwa [hrow hr'] at h
  have hunhanded : ∀ {m}, f.Grounds m (.unhandedReturn id) → r.Unhanded ∧
      SameMoves m (resolveMovements id r (available r.memberId)) := by
    rintro m ⟨r', hr', h⟩
    rwa [hrow hr'] at h
  have hfinal : ∀ {m}, f.Grounds m (.finalize id) → ∃ c, r.finalization = some c ∧
      SameMoves m (resolveMovements id r (r.destination c.outcome)) := by
    rintro m ⟨r', c, hr', h⟩
    obtain rfl := hrow hr'
    exact ⟨c, h⟩
  have hgrounds : ∀ {k}, k ∈ f.ledger.journals → ∃ m, f.Grounds m k := by
    intro k hk
    obtain ⟨j, hj⟩ := Option.isSome_iff_exists.mp (AList.lookup_isSome.mpr hk)
    exact ⟨_, hf.explained hj⟩
  -- The states of the three ends exclude each other.
  have hunfinal : r.state = .rejected ∨ r.state = .cancelled → r.finalization = none := by
    rintro (hs | hs) <;> simp_all [Reservation.Shape]
  have hapart : r.Unstarted → ¬ r.Unhanded := by
    rintro (hs | ⟨-, hb⟩) ⟨hs', hb'⟩
    · rw [hs] at hs'
      cases hs'
    · rw [hb] at hb'
      cases hb'
  have hnofinal : (r.Unstarted ∨ r.Unhanded) → ∀ c, r.finalization ≠ some c := by
    rintro hends c hc
    rw [hunfinal] at hc
    · cases hc
    · rcases hends with (hs | ⟨hs, -⟩) | ⟨hs, -⟩
      · exact Or.inl hs
      · exact Or.inr hs
      · exact Or.inr hs
  have houtcome : (r.Unstarted ∨ r.Unhanded) → r.collateralOutcome = some .returned := by
    rintro ((hs | ⟨hs, -⟩) | ⟨hs, -⟩) <;> simp_all [Reservation.Shape]
  constructor
  · intro k hk k' hk' hin hin'
    obtain ⟨m, hg⟩ := hgrounds hin
    obtain ⟨m', hg'⟩ := hgrounds hin'
    simp only [resolutions, List.mem_cons, List.not_mem_nil, or_false] at hk hk'
    rcases hk with rfl | rfl | rfl <;> rcases hk' with rfl | rfl | rfl
    · rfl
    · exact absurd (hunhanded hg').1 (hapart (hreturned hg).1)
    · obtain ⟨c, hc, -⟩ := hfinal hg'
      exact absurd hc (hnofinal (Or.inl (hreturned hg).1) c)
    · exact absurd (hunhanded hg).1 (hapart (hreturned hg').1)
    · rfl
    · obtain ⟨c, hc, -⟩ := hfinal hg'
      exact absurd hc (hnofinal (Or.inr (hunhanded hg).1) c)
    · obtain ⟨c, hc, -⟩ := hfinal hg
      exact absurd hc (hnofinal (Or.inl (hreturned hg').1) c)
    · obtain ⟨c, hc, -⟩ := hfinal hg
      exact absurd hc (hnofinal (Or.inr (hunhanded hg').1) c)
    · rfl
  · intro k hk j hj
    have hg := hf.explained hj
    simp only [resolutions, List.mem_cons, List.not_mem_nil, or_false] at hk
    rcases hk with rfl | rfl | rfl
    · obtain ⟨hend, hmoves⟩ := hreturned hg
      exact ⟨.returned, houtcome (Or.inl hend), hmoves⟩
    · obtain ⟨hend, hmoves⟩ := hunhanded hg
      exact ⟨.returned, houtcome (Or.inr hend), hmoves⟩
    · obtain ⟨c, hc, hmoves⟩ := hfinal hg
      exact ⟨c.outcome, hshape.finalization_iff hc, hmoves⟩

/-! ## The life of a reservation -/

/-- What holds of a reservation at any time. -/
structure ReservationAccounts (f : Funds) (id : Uuid) (r : Reservation) : Prop where
  collateral : f.ledger.balance (held id) = if r.collateralOutcome = none then (r.amount : ℤ) else 0
  commitment : f.ledger.balance (committedFee id)
    = if r.feeActual = none then (r.feeLimit : ℤ) else 0
  slot : r.slotHeld = true ↔ (r.state = .reserved ∨ r.state = .uncertain ∨ r.state = .accepted)
  resolved : ResolvedOnce f.ledger id r
  amount : (r.amount : ℤ) = ⌈(r.baseAmount : ℚ) * r.multiplier.value⌉
  /-- The multiplier is the member's at the revision that `reserve` captured. -/
  captured : f.multiplierAt r.memberId r.multiplierRevision = some r.multiplier

/-- In every state that transactions other than corrections reach, the accounts of each
reservation are what its row says, its outcome and its terms are for ever, and no member
occupies more than two slots. -/
theorem reservation_accounts {s : Sys} (h : Sys.Reachable Sys.Uncorrected s) :
    (∀ id r, s.db.funds.reservations.lookup id = some r → ReservationAccounts s.db.funds id r ∧
      ∀ s', Leads Sys.Step Sys.Any s s' → ∃ r', s'.db.funds.reservations.lookup id = some r' ∧
        r'.amount = r.amount ∧ r'.multiplier = r.multiplier ∧
        ∀ o, r.collateralOutcome = some o → r'.collateralOutcome = some o) ∧
    ∀ m, s.db.funds.reservations.count (fun _ r => r.memberId = m ∧ r.slotHeld) ≤ 2 := by
  have hf := h.lawful.funds
  refine ⟨fun id r hr => ⟨?_, fun s' hrun => ?_⟩, hf.slots⟩
  · have hlawful := hf.rows.reservation hr
    exact
      { collateral := by
          rw [h.reconciled _ ⟨by simp, by simp⟩, Funds.booked_held hf.rows hr]
        commitment := by
          rw [h.reconciled _ ⟨by simp, by simp⟩, Funds.booked_committed hf.rows hr]
        slot := hlawful.shape.slotHeld_iff
        resolved := hf.resolvedOnce hr
        amount := hlawful.amount
        captured := hf.priced.reservation hr }
  · obtain ⟨r', hr', hx⟩ := (Sys.run_extends h.lawful hrun).reservation hr
    refine ⟨r', hr', hx.amount, ?_, fun o => hx.outcome o⟩
    have hterms := congrArg Reservation.multiplier hx.terms
    exact hterms

/-- The reservation of the first day holds 10 TIG of the member's. -/
theorem reservation_accounts_evening :
    FirstDay.evening.db.funds.ledger.balance (held "benchmark") = 10 * tig ∧
    ∀ id r, FirstDay.evening.db.funds.reservations.lookup id = some r →
      ReservationAccounts FirstDay.evening.db.funds id r :=
  ⟨by decide +kernel, fun id r hr =>
    ((reservation_accounts (FirstDay.reachable fun _ _ ha _ _ => ha)).1 id r hr).1⟩

end TigPool
