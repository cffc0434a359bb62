/-
# `TigPool.Journals` — why every journal was posted

A journal's event key names a fact, and the rows say whether it is one: under
`reservation:<id>:fee` there is a journal only if the reservation's actual fee is
known, and then it has moved what that fee requires.  `Grounds` lists, key by key,
which rows a journal rests on and what it must have moved; grounds are never lost,
so in every reachable state every journal has them (`Explained`).

This is what makes replays safe.  An operation posts under a key only when the
fact the key names is not yet on record, so the posting is never mistaken for a
repetition, and never repeated.
-/
import TigPool.Frozen

namespace TigPool

open Basis

/-- Where the collateral of a finalized reservation went. -/
def Reservation.destination (r : Reservation) : CollateralOutcome → AccountId
  | .returned => available r.memberId
  | .forfeited => pot r.creationRound

namespace Funds

/-- The rows on record ground a journal with these amounts under the key. -/
def Grounds (f : Funds) (m : Movements AccountId) : EventKey → Prop
  | .reserve id => ∃ r, f.reservations.lookup id = some r ∧ SameMoves m (reserveMovements id r)
  | .fee id => ∃ r n, f.reservations.lookup id = some r ∧ r.feeActual = some n ∧
      SameMoves m (feeMovements id r n)
  | .collateralReturn id => ∃ r, f.reservations.lookup id = some r ∧ r.Unstarted ∧
      SameMoves m (resolveMovements id r (available r.memberId))
  | .unhandedReturn id => ∃ r, f.reservations.lookup id = some r ∧ r.Unhanded ∧
      SameMoves m (resolveMovements id r (available r.memberId))
  | .finalize id => ∃ r c, f.reservations.lookup id = some r ∧ r.finalization = some c ∧
      SameMoves m (resolveMovements id r (r.destination c.outcome))
  | .receipt e => ∃ t, f.transfers.lookup e = some t ∧ t.incoming f.wallet = true ∧
      SameMoves m (receiptMovements t.amount)
  | .attribution e => ∃ t a, f.transfers.lookup e = some t ∧ t.attribution = some a ∧
      SameMoves m (attributionMovements t.amount a.destination)
  | .reimburse n => ∃ e r, f.roundEarnings.lookup n = some e ∧ e.reimbursement = some r ∧
      SameMoves m (reimburseMovements n r.amount)
  | .settle n => ∃ e s, f.roundEarnings.lookup n = some e ∧ e.settlement = some s ∧
      SameMoves m (settleMovements n s)
  | .withdrawalReserve id => ∃ w, f.withdrawals.lookup id = some w ∧
      SameMoves m (requestMovements id w)
  | .withdrawalRelease id => ∃ w, f.withdrawals.lookup id = some w ∧ w.Released ∧
      SameMoves m (releaseMovements id w)
  | .attemptGas aid => ∃ a, f.withdrawalAttempts.lookup aid = some a ∧
      SameMoves m (gasMovements aid a.feeLimit)
  | .attemptReconcile aid => ∃ a o w, f.withdrawalAttempts.lookup aid = some a ∧
      a.outcome = some o ∧ f.withdrawals.lookup a.withdrawalId = some w ∧
      SameMoves m (reconcileMovements a.withdrawalId aid w a o.outcome o.fee)
  | .topupReserve id => ∃ t, f.protocolTopups.lookup id = some t ∧
      SameMoves m (topupMovements id t)
  | .topupCash id => ∃ t s p, f.protocolTopups.lookup id = some t ∧ t.state ≠ .uncertain ∧
      f.custodySends.lookup id = some s ∧ s.payment = some p ∧
      SameMoves m (topupCashMovements id t t.state.sent p.fee)
  | .topupProtocol id => ∃ t, f.protocolTopups.lookup id = some t ∧ t.credit.isSome ∧
      SameMoves m (openingPosition t.amount)
  | .custodyOpening _ .TIG => f.chainStream.isSome ∧
      SameMoves m (f.openingBaseline.elim [] (·.position))
  | .custodyOpening _ .NATIVE => f.chainStream.isSome
  | .protocolOpening source => ∃ c, f.protocolOpeningCredits.lookup source = some c ∧
      SameMoves m (openingPosition c.amount)
  | .mainnetPrelaunch id => ∃ c, f.mainnetOpeningCredits.lookup id = some c ∧
      SameMoves m (openingPosition c.amount)
  | .nativeReceipt _ _ | .nativeInternalReceipt _ _ _ | .correction _ => True

/-- Every journal has its grounds. -/
def Explained (f : Funds) : Prop :=
  ∀ ⦃k j⦄, f.ledger.journals.lookup k = some j → f.Grounds j.amounts k

theorem Explained.empty : empty.Explained := fun _ _ h => by cases h

variable {f f' : Funds} {c : Change}

/-- A key is fresh as long as nothing grounds a journal under it. -/
theorem Explained.fresh (h : f.Explained) {k : EventKey} (hk : ∀ m, ¬ f.Grounds m k) :
    k ∉ f.ledger.journals := fun hmem => by
  obtain ⟨j, hj⟩ := Option.isSome_iff_exists.mp (AList.lookup_isSome.mpr hmem)
  exact hk _ (h hj)

/-! ## Grounds are never lost -/

theorem incoming_of_stays {t : Transfer} (h : Stays f.custodyIdentity f'.custodyIdentity)
    (hin : t.incoming f.wallet = true) : t.incoming f'.wallet = true := by
  unfold Funds.wallet at *
  cases hi : f.custodyIdentity with
  | none => simp [Transfer.incoming, hi] at hin
  | some i => rwa [h i hi, ← hi]

theorem Grounds.mono (h : f.Extends f') {m : Movements AccountId} {k : EventKey}
    (hg : f.Grounds m k) : f'.Grounds m k := by
  cases k with
  | reserve id =>
      obtain ⟨r, hr, hm⟩ := hg
      obtain ⟨r', hr', he⟩ := h.reservation hr
      refine ⟨r', hr', ?_⟩
      rwa [reserveMovements, he.memberId, he.amount, he.feeLimit]
  | fee id =>
      obtain ⟨r, n, hr, hn, hm⟩ := hg
      obtain ⟨r', hr', he⟩ := h.reservation hr
      refine ⟨r', n, hr', he.feeActual n hn, ?_⟩
      rwa [feeMovements, he.feeLimit]
  | collateralReturn id =>
      obtain ⟨r, hr, hs, hm⟩ := hg
      obtain ⟨r', hr', he⟩ := h.reservation hr
      refine ⟨r', hr', he.unstarted hs, ?_⟩
      rwa [resolveMovements, he.amount, he.memberId]
  | unhandedReturn id =>
      obtain ⟨r, hr, hs, hm⟩ := hg
      obtain ⟨r', hr', he⟩ := h.reservation hr
      refine ⟨r', hr', he.unhanded hs, ?_⟩
      rwa [resolveMovements, he.amount, he.memberId]
  | finalize id =>
      obtain ⟨r, c, hr, hc, hm⟩ := hg
      obtain ⟨r', hr', he⟩ := h.reservation hr
      refine ⟨r', c, hr', he.finalization c hc, ?_⟩
      have hdest : r'.destination c.outcome = r.destination c.outcome := by
        unfold Reservation.destination
        rw [he.memberId, he.creationRound]
      rwa [resolveMovements, he.amount, hdest]
  | receipt e =>
      obtain ⟨t, ht, hin, hm⟩ := hg
      obtain ⟨t', ht', he⟩ := h.transfer ht
      refine ⟨t', ht', ?_, ?_⟩
      · rw [he.incoming]
        exact incoming_of_stays h.identity hin
      · rwa [he.amount]
  | attribution e =>
      obtain ⟨t, a, ht, ha, hm⟩ := hg
      obtain ⟨t', ht', he⟩ := h.transfer ht
      refine ⟨t', a, ht', he.attribution a ha, ?_⟩
      rwa [he.amount]
  | reimburse n =>
      obtain ⟨e, r, he, hr, hm⟩ := hg
      obtain ⟨e', he', hext⟩ := h.earnings he
      exact ⟨e', r, he', hext.reimbursement r hr, hm⟩
  | settle n =>
      obtain ⟨e, s, he, hs, hm⟩ := hg
      obtain ⟨e', he', hext⟩ := h.earnings he
      exact ⟨e', s, he', hext.settlement s hs, hm⟩
  | withdrawalReserve id =>
      obtain ⟨w, hw, hm⟩ := hg
      obtain ⟨w', hw', he⟩ := h.withdrawal hw
      refine ⟨w', hw', ?_⟩
      rwa [requestMovements, he.source, he.amount]
  | withdrawalRelease id =>
      obtain ⟨w, hw, hs, hm⟩ := hg
      obtain ⟨w', hw', he⟩ := h.withdrawal hw
      refine ⟨w', hw', he.released hs, ?_⟩
      rwa [releaseMovements, he.source, he.amount]
  | attemptGas aid =>
      obtain ⟨a, ha, hm⟩ := hg
      obtain ⟨a', ha', he⟩ := h.attempt ha
      refine ⟨a', ha', ?_⟩
      rwa [he.feeLimit]
  | attemptReconcile aid =>
      obtain ⟨a, o, w, ha, ho, hw, hm⟩ := hg
      obtain ⟨a', ha', hea⟩ := h.attempt ha
      obtain ⟨w', hw', hew⟩ := h.withdrawal hw
      refine ⟨a', o, w', ha', hea.outcome o ho, ?_, ?_⟩
      · rwa [hea.withdrawalId]
      · rwa [reconcileMovements, hea.withdrawalId, hea.feeLimit, hew.amount]
  | topupReserve id =>
      obtain ⟨t, ht, hm⟩ := hg
      obtain ⟨t', ht', he⟩ := h.topup ht
      refine ⟨t', ht', ?_⟩
      rwa [topupMovements, he.amount, he.feeLimit]
  | topupCash id =>
      obtain ⟨t, s, p, ht, hstate, hs, hp, hm⟩ := hg
      obtain ⟨t', ht', he⟩ := h.topup ht
      obtain ⟨s', hs', hes⟩ := h.send hs
      obtain ⟨hstate', hsent⟩ := he.resolved hstate
      refine ⟨t', s', p, ht', hstate', hs', hes.payment p hp, ?_⟩
      rwa [topupCashMovements, he.amount, he.feeLimit, hsent]
  | topupProtocol id =>
      obtain ⟨t, ht, hc, hm⟩ := hg
      obtain ⟨t', ht', he⟩ := h.topup ht
      refine ⟨t', ht', he.credit.isSome hc, ?_⟩
      rwa [he.amount]
  | custodyOpening capture asset =>
      cases asset with
      | TIG =>
          obtain ⟨hs', heq⟩ := h.baseline hg.1
          refine ⟨hs', ?_⟩
          rw [heq]
          exact hg.2
      | NATIVE => exact (h.baseline hg).1
  | protocolOpening source =>
      obtain ⟨c, hc, hm⟩ := hg
      exact ⟨c, h.protocolOpening.lookup hc, hm⟩
  | mainnetPrelaunch id =>
      obtain ⟨c, hc, hm⟩ := hg
      exact ⟨c, h.mainnetOpening.lookup hc, hm⟩
  | nativeReceipt => trivial
  | nativeInternalReceipt => trivial
  | correction => trivial

/-! ## New journals have theirs -/

theorem Explained.of_same (he : f.Explained) (hext : f.Extends f')
    (hjournals : f'.ledger.journals = f.ledger.journals) : f'.Explained := fun k j hj => by
  rw [hjournals] at hj
  exact (he hj).mono hext

theorem Explained.of_recorded {ledger : Ledger} {key : EventKey} {m : Movements AccountId}
    (he : f.Explained) (hext : f.Extends f') (hr : f.ledger.Recorded key m ledger)
    (hledger : f'.ledger = ledger) (hnew : ∀ m', SameMoves m' m → f'.Grounds m' key) :
    f'.Explained := fun k j hj => by
  rw [hledger] at hj
  rcases hr.journal_cases hj with hold | ⟨rfl, hm⟩
  · exact (he hold).mono hext
  · exact hnew _ hm

theorem Explained.step (hl : f.LawfulRows) (he : f.Explained) (h : Step f c f') :
    f'.Explained := by
  have hext := h.extends hl
  cases h with
  | corrected hpost =>
      intro k j hj
      simp only [Ledger.posted, Table.lookup_insert_eq] at hj
      split at hj
      next heq =>
        rw [heq]
        trivial
      next => exact (he hj).mono hext
  | @nativeFunded key _ _ _ hkey hopen hr =>
      refine he.of_recorded hext hr rfl fun m' _ => ?_
      unfold nativeKey at hkey
      split at hkey
      next => trivial
      next => trivial
      next capture => exact hopen capture rfl
      next => cases hkey
  | received ht hin hr =>
      exact he.of_recorded hext hr rfl fun m' hm => ⟨_, ht, hin, hm⟩
  | attributed ht hin ha _ hr =>
      exact he.of_recorded hext hr rfl fun m' hm => ⟨_, _, AList.lookup_insert _, rfl, hm⟩
  | rewarded ht hin ha hdest _ _ _ _ hr =>
      refine he.of_recorded hext hr rfl fun m' hm => ⟨_, _, AList.lookup_insert _, rfl, ?_⟩
      rwa [hdest]
  | reserved _ _ _ _ _ _ hr =>
      exact he.of_recorded hext hr rfl fun m' hm => ⟨_, AList.lookup_insert _, hm⟩
  | accepted _ _ _ _ hr =>
      exact he.of_recorded hext hr rfl fun m' hm => ⟨_, _, AList.lookup_insert _, rfl, hm⟩
  | @unstarted id r state actual ledger ledger' hrow hs _ hr hr' =>
      intro k j hj
      rcases hr'.journal_cases hj with hold | ⟨rfl, hm⟩
      · rcases hr.journal_cases hold with hold | ⟨rfl, hm⟩
        · exact (he hold).mono hext
        · exact ⟨_, _, AList.lookup_insert _, rfl, hm⟩
      · have hshape := (hl.reservation hrow).shape.of_unaccepted (by
          rcases hs with hs | hs
          · exact Or.inr hs.1
          · exact Or.inl hs.1)
        refine ⟨_, AList.lookup_insert _, ?_, hm⟩
        rcases hs with ⟨-, rfl⟩ | ⟨-, rfl⟩
        · exact Or.inl rfl
        · exact Or.inr ⟨rfl, hshape.2.2⟩
  | unhanded hrow hs _ hr =>
      have hshape := (hl.reservation hrow).shape.of_accepted hs
      exact he.of_recorded hext hr rfl fun m' hm =>
        ⟨_, AList.lookup_insert _, ⟨rfl, hshape.2.2⟩, hm⟩
  | finalized _ _ _ _ hdest hr =>
      refine he.of_recorded hext hr rfl fun m' hm => ⟨_, _, AList.lookup_insert _, rfl, ?_⟩
      rcases hdest with ⟨ho, rfl⟩ | ⟨ho, rfl⟩ <;> rw [ho] <;> exact hm
  | reimbursed _ _ _ hr =>
      exact he.of_recorded hext hr rfl fun m' hm => ⟨_, _, AList.lookup_insert _, rfl, hm⟩
  | settled _ _ _ _ _ _ _ _ hr =>
      exact he.of_recorded hext hr rfl fun m' hm => ⟨_, _, AList.lookup_insert _, rfl, hm⟩
  | requested _ _ _ _ _ _ _ _ hr =>
      exact he.of_recorded hext hr rfl fun m' hm => ⟨_, AList.lookup_insert _, hm⟩
  | released _ _ hstate hr =>
      exact he.of_recorded hext hr rfl fun m' hm => ⟨_, AList.lookup_insert _, hstate, hm⟩
  | begun _ _ _ _ _ _ _ _ _ _ _ hr =>
      exact he.of_recorded hext hr rfl fun m' hm => ⟨_, AList.lookup_insert _, hm⟩
  | unpaid _ _ hid _ _ _ _ _ _ hr =>
      subst hid
      exact he.of_recorded hext hr rfl fun m' hm =>
        ⟨_, _, _, AList.lookup_insert _, rfl, AList.lookup_insert _, hm⟩
  | paid _ _ hid _ _ _ _ _ _ _ _ _ hpaid _ _ _ _ hr =>
      subst hid
      refine he.of_recorded hext hr rfl fun m' hm =>
        ⟨_, _, _, AList.lookup_insert _, rfl, AList.lookup_insert _, ?_⟩
      rwa [hpaid]
  | topupBegun _ _ _ _ hr =>
      exact he.of_recorded hext hr rfl fun m' hm => ⟨_, AList.lookup_insert _, hm⟩
  | topupReconciled _ _ _ _ hstate hr =>
      refine he.of_recorded hext hr rfl fun m' hm =>
        ⟨_, _, _, AList.lookup_insert _, ?_, AList.lookup_insert _, rfl, hm⟩
      rcases hstate with ⟨rfl | rfl, -⟩ | ⟨rfl, -⟩ <;> simp
  | topupCredited _ _ _ _ _ _ _ _ _ _ _ hr =>
      exact he.of_recorded hext hr rfl fun m' hm => ⟨_, AList.lookup_insert _, rfl, hm⟩
  | streamOpened _ hr => exact he.of_recorded hext hr rfl fun m' hm => ⟨rfl, hm⟩
  | protocolOpened _ hr =>
      exact he.of_recorded hext hr rfl fun m' hm => ⟨_, AList.lookup_insert _, hm⟩
  | mainnetOpened _ _ _ _ _ _ hr =>
      exact he.of_recorded hext hr rfl fun m' hm => ⟨_, AList.lookup_insert _, hm⟩
  | _ => exact he.of_same hext rfl

end Funds

end TigPool
