/-
# `TigPool.Evidence` — what every payment rests on

A payment is recorded with the transaction and the token event that prove it, and
these are on record before it.  `Evidenced` keeps that in sight: behind every paid
attempt and every sent top-up stand a custody payment, its transaction and a
transfer of exactly the promised amount.  From this, what left custody can be
counted from either side (`LinkedBalance`).
-/
import TigPool.Payments

namespace TigPool

open Basis

namespace Funds

/-- The evidence behind a paid attempt. -/
structure PaidBy (f : Funds) (aid : Uuid) (a : WithdrawalAttempt) (o : WithdrawalAttemptOutcome)
    (w : Withdrawal) (s : CustodySend) (p : CustodyPayment) (e : EventId) (t : Transfer)
    (tx : ChainTransaction) : Prop where
  withdrawal : f.withdrawals.lookup a.withdrawalId = some w
  paidEvent : w.paidEvent = some e
  send : f.custodySends.lookup aid = some s
  payment : s.payment = some p
  event : p.transferEvent = some e
  transfer : f.transfers.lookup e = some t
  amount : t.amount = w.amount
  recipient : t.recipient = w.recipient
  transaction : f.chainTransactions.lookup (o.chainId, o.txHash) = some tx
  time : a.sentAt ≤ tx.blockTimestamp + seconds 5

/-- The evidence behind a top-up that has left custody. -/
structure SentBy (f : Funds) (id : Uuid) (u : ProtocolTopup) (s : CustodySend)
    (p : CustodyPayment) (e : EventId) (t : Transfer) (tx : ChainTransaction) : Prop where
  send : f.custodySends.lookup id = some s
  payment : s.payment = some p
  event : p.transferEvent = some e
  txHash : e.txHash = p.txHash
  transfer : f.transfers.lookup e = some t
  amount : t.amount = u.amount
  transaction : f.chainTransactions.lookup (p.chainId, p.txHash) = some tx
  block : u.preflightBlock < tx.blockNumber

/-- A send whose transaction moved no token. -/
def UnpaidSend (f : Funds) (id : Uuid) : Prop :=
  ∃ s p, f.custodySends.lookup id = some s ∧ s.payment = some p ∧ p.transferEvent = none

structure Evidenced (f : Funds) : Prop where
  paid : ∀ {aid a o}, f.withdrawalAttempts.lookup aid = some a → a.outcome = some o →
    o.outcome = .paid → ∃ w s p e t tx, f.PaidBy aid a o w s p e t tx
  unpaid : ∀ {aid a o}, f.withdrawalAttempts.lookup aid = some a → a.outcome = some o →
    o.outcome ≠ .paid → f.UnpaidSend aid
  sent : ∀ {id u}, f.protocolTopups.lookup id = some u → u.state.sent = true →
    ∃ s p e t tx, f.SentBy id u s p e t tx
  linked : ∀ {id s p e}, f.custodySends.lookup id = some s → s.payment = some p →
    p.transferEvent = some e → ∃ t, f.transfers.lookup e = some t ∧ some t.sender = f.wallet

theorem Evidenced.empty : empty.Evidenced where
  paid h := by cases h
  unpaid h := by cases h
  sent h := by cases h
  linked h := by cases h

variable {f f' : Funds} {c : Change}

theorem PaidBy.mono (h : f.Extends f') {aid : Uuid} {a : WithdrawalAttempt}
    {o : WithdrawalAttemptOutcome} (hp : ∃ w s p e t tx, f.PaidBy aid a o w s p e t tx) :
    ∃ w s p e t tx, f'.PaidBy aid a o w s p e t tx := by
  obtain ⟨w, s, p, e, t, tx, hp⟩ := hp
  obtain ⟨w', hw', hew⟩ := h.withdrawal hp.withdrawal
  obtain ⟨s', hs', hes⟩ := h.send hp.send
  obtain ⟨t', ht', het⟩ := h.transfer hp.transfer
  exact ⟨w', s', p, e, t', tx,
    { withdrawal := hw'
      paidEvent := hew.paidEvent e hp.paidEvent
      send := hs'
      payment := hes.payment p hp.payment
      event := hp.event
      transfer := ht'
      amount := by rw [het.amount, hew.amount, hp.amount]
      recipient := by rw [het.recipient, hew.recipient, hp.recipient]
      transaction := h.transaction.lookup hp.transaction
      time := hp.time }⟩

theorem UnpaidSend.mono (h : f.Extends f') {id : Uuid} (hu : f.UnpaidSend id) :
    f'.UnpaidSend id := by
  obtain ⟨s, p, hs, hp, he⟩ := hu
  obtain ⟨s', hs', hes⟩ := h.send hs
  exact ⟨s', p, hs', hes.payment p hp, he⟩

theorem SentBy.mono (h : f.Extends f') {id : Uuid} {u u' : ProtocolTopup} (hu : u.Extends u')
    (hs : ∃ s p e t tx, f.SentBy id u s p e t tx) :
    ∃ s p e t tx, f'.SentBy id u' s p e t tx := by
  obtain ⟨s, p, e, t, tx, hs⟩ := hs
  obtain ⟨s', hs', hes⟩ := h.send hs.send
  obtain ⟨t', ht', het⟩ := h.transfer hs.transfer
  exact ⟨s', p, e, t', tx,
    { send := hs'
      payment := hes.payment p hs.payment
      event := hs.event
      txHash := hs.txHash
      transfer := ht'
      amount := by rw [het.amount, hu.amount, hs.amount]
      transaction := h.transaction.lookup hs.transaction
      block := by rw [hu.preflightBlock]; exact hs.block }⟩

theorem Evidenced.step (hl : f.LawfulRows) (he : f.Evidenced) (h : Step f c f') :
    f'.Evidenced := by
  have hext := h.extends hl
  refine ⟨?_, ?_, ?_, ?_⟩
  · intro aid a o ha ho hpaid
    have hold : f.withdrawalAttempts.lookup aid = some a →
        ∃ w s p e t tx, f'.PaidBy aid a o w s p e t tx :=
      fun ha => PaidBy.mono hext (he.paid ha ho hpaid)
    cases h with
    | begun _ _ _ _ hnone =>
        rcases Table.lookup_insert_cases ha with ⟨rfl, rfl⟩ | ⟨-, ha⟩
        · rw [hnone] at ho
          cases ho
        · exact hold ha
    | unpaid _ _ _ _ _ _ _ _ hresult =>
        rcases Table.lookup_insert_cases ha with ⟨rfl, rfl⟩ | ⟨-, ha⟩
        · obtain rfl := Option.some.inj ho
          exact absurd hpaid hresult
        · exact hold ha
    | @paid id _ w _ s p authorization e t tx _ _ _ hx _ hid hw _ hs _ hevent ht hamount
        hrecipient _ _ htx htime =>
        rcases Table.lookup_insert_cases ha with ⟨rfl, rfl⟩ | ⟨-, ha⟩
        · obtain rfl := Option.some.inj ho
          subst hid
          exact ⟨{ w with state := .paid, paidEvent := some e },
            { s with payment := some p, authorization }, p, e, t, tx,
            ⟨AList.lookup_insert _, rfl, AList.lookup_insert _, rfl, hevent, ht, hamount,
              hrecipient, htx, htime⟩⟩
        · exact hold ha
    | _ => exact hold ha
  · intro aid a o ha ho hunpaid
    have hold : f.withdrawalAttempts.lookup aid = some a → f'.UnpaidSend aid :=
      fun ha => (he.unpaid ha ho hunpaid).mono hext
    cases h with
    | begun _ _ _ _ hnone =>
        rcases Table.lookup_insert_cases ha with ⟨rfl, rfl⟩ | ⟨-, ha⟩
        · rw [hnone] at ho
          cases ho
        · exact hold ha
    | unpaid _ _ _ _ _ _ _ hevent =>
        rcases Table.lookup_insert_cases ha with ⟨rfl, rfl⟩ | ⟨-, ha⟩
        · exact ⟨_, _, AList.lookup_insert _, rfl, hevent⟩
        · exact hold ha
    | paid _ _ _ _ _ _ _ _ _ _ _ _ hresult =>
        rcases Table.lookup_insert_cases ha with ⟨rfl, rfl⟩ | ⟨-, ha⟩
        · obtain rfl := Option.some.inj ho
          exact absurd hresult hunpaid
        · exact hold ha
    | _ => exact hold ha
  · intro id u hu hsent
    have hold : ∀ {u₀}, f.protocolTopups.lookup id = some u₀ → u₀.Extends u →
        u₀.state.sent = true → ∃ s p e t tx, f'.SentBy id u s p e t tx :=
      fun hu₀ hx hsent₀ => SentBy.mono hext hx (he.sent hu₀ hsent₀)
    cases h with
    | topupBegun _ hs =>
        rcases Table.lookup_insert_cases hu with ⟨rfl, rfl⟩ | ⟨-, hu⟩
        · simp [TopupState.sent, hs] at hsent
        · exact hold hu (.refl _) hsent
    | topupReconciled ht _ hs _ hstate =>
        rcases Table.lookup_insert_cases hu with ⟨rfl, rfl⟩ | ⟨-, hu⟩
        · rcases hstate with
            ⟨rfl | rfl, -⟩ | ⟨rfl, e, row, tx, hevent, hhash, hrow, hamount, -, htx, hblock⟩
          · cases hsent
          · cases hsent
          · exact ⟨_, _, e, row, tx,
              ⟨AList.lookup_insert _, rfl, hevent, hhash, hrow, hamount, htx, hblock⟩⟩
        · exact hold hu (.refl _) hsent
    | topupCredited ht hs hnone =>
        rcases Table.lookup_insert_cases hu with ⟨rfl, rfl⟩ | ⟨-, hu⟩
        · exact hold ht (ProtocolTopup.Turns.extends (.credited hs hnone)) (by rw [hs]; rfl)
        · exact hold hu (.refl _) hsent
    | _ => exact hold hu (.refl _) hsent
  · intro id s p e hs hp hevent
    have hold : f.custodySends.lookup id = some s →
        ∃ t, f'.transfers.lookup e = some t ∧ some t.sender = f'.wallet := by
      intro hs
      obtain ⟨t, ht, hsender⟩ := he.linked hs hp hevent
      obtain ⟨t', ht', hx⟩ := hext.transfer ht
      exact ⟨t', ht', h.wallet_stays (hx.sender ▸ hsender)⟩
    cases h with
    | begun _ _ _ _ _ _ _ _ _ _ hsend =>
        rcases Table.lookup_insert_cases hs with ⟨rfl, rfl⟩ | ⟨-, hs⟩
        · rw [hsend.payment] at hp
          cases hp
        · exact hold hs
    | topupBegun _ _ _ hsend =>
        rcases Table.lookup_insert_cases hs with ⟨rfl, rfl⟩ | ⟨-, hs⟩
        · rw [hsend.payment] at hp
          cases hp
        · exact hold hs
    | unpaid _ _ _ _ _ _ _ hnone =>
        rcases Table.lookup_insert_cases hs with ⟨rfl, rfl⟩ | ⟨-, hs⟩
        · obtain rfl := Option.some.inj hp
          rw [hnone] at hevent
          cases hevent
        · exact hold hs
    | paid _ _ _ _ _ _ _ hsome ht _ _ hsender =>
        rcases Table.lookup_insert_cases hs with ⟨rfl, rfl⟩ | ⟨-, hs⟩
        · obtain rfl := Option.some.inj hp
          obtain rfl := Option.some.inj (hsome.symm.trans hevent)
          exact ⟨_, ht, hsender⟩
        · exact hold hs
    | topupReconciled _ _ _ _ hstate =>
        rcases Table.lookup_insert_cases hs with ⟨rfl, rfl⟩ | ⟨-, hs⟩
        · obtain rfl := Option.some.inj hp
          rcases hstate with ⟨-, hnone⟩ | ⟨-, e', row, tx, hsome, -, hrow, -, hsender, -⟩
          · rw [hnone] at hevent
            cases hevent
          · obtain rfl := Option.some.inj (hsome.symm.trans hevent)
            exact ⟨row, hrow, hsender⟩
        · exact hold hs
    | _ => exact hold hs

/-! ## What left custody -/

/-- The amount of the transfer a send was paid with. -/
def linkedAmount (transfers : Table EventId Transfer) (s : CustodySend) : ℤ :=
  ((s.payment.bind (·.transferEvent)).bind fun e => transfers.lookup e).elim 0 (·.amount)

/-- The outgoing transfers linked to custody payments, added up. -/
def linkedOut (f : Funds) : ℤ :=
  f.custodySends.total fun _ s => linkedAmount f.transfers s

/-- Paid withdrawals and sent top-ups, added up. -/
def paidOut (f : Funds) : ℤ :=
  f.withdrawals.total (fun _ w => if w.state = .paid then (w.amount : ℤ) else 0) +
    f.protocolTopups.total fun _ u => if u.state.sent = true then (u.amount : ℤ) else 0

/-- Every linked transfer is a paid withdrawal or a sent top-up, and conversely. -/
def LinkedBalance (f : Funds) : Prop :=
  f.linkedOut = f.paidOut

theorem linkedAmount_none {transfers : Table EventId Transfer} {s : CustodySend}
    (h : s.payment = none) : linkedAmount transfers s = 0 := by
  rw [linkedAmount, h]
  rfl

theorem linkedAmount_event {transfers : Table EventId Transfer} {s : CustodySend}
    {p : CustodyPayment} {e : EventId} {t : Transfer} (hp : s.payment = some p)
    (he : p.transferEvent = some e) (ht : transfers.lookup e = some t) :
    linkedAmount transfers s = t.amount := by
  simp [linkedAmount, hp, he, ht]

theorem linkedAmount_no_event {transfers : Table EventId Transfer} {s : CustodySend}
    {p : CustodyPayment} (hp : s.payment = some p) (he : p.transferEvent = none) :
    linkedAmount transfers s = 0 := by
  simp [linkedAmount, hp, he]

/-- Later transfers do not change what the sends on record amount to. -/
theorem Evidenced.linkedAmount (he : f.Evidenced)
    (hext : Basis.Extends Transfer.Extends f.transfers f'.transfers) {id : Uuid} {s : CustodySend}
    (hs : f.custodySends.lookup id = some s) :
    Funds.linkedAmount f'.transfers s = Funds.linkedAmount f.transfers s := by
  cases hp : s.payment with
  | none => rw [linkedAmount_none hp, linkedAmount_none hp]
  | some p =>
      cases hevent : p.transferEvent with
      | none => rw [linkedAmount_no_event hp hevent, linkedAmount_no_event hp hevent]
      | some e =>
          obtain ⟨t, ht, -⟩ := he.linked hs hp hevent
          obtain ⟨t', ht', hx⟩ := hext ht
          rw [linkedAmount_event hp hevent ht, linkedAmount_event hp hevent ht', hx.amount]

theorem LinkedBalance.step (hl : f.LawfulRows) (he : f.Evidenced) (hb : f.LinkedBalance)
    (h : Step f c f') : f'.LinkedBalance := by
  have hext := (h.extends hl).transfer
  have hsame : f.custodySends.total (fun _ s => Funds.linkedAmount f'.transfers s)
      = f.custodySends.total fun _ s => Funds.linkedAmount f.transfers s :=
    Table.total_congr fun _ _ hs => he.linkedAmount hext hs
  unfold LinkedBalance linkedOut paidOut at *
  cases h with
  | requested hnone hs =>
      rw [hb, Table.total_insert_fresh hnone]
      simp [hs]
  | approved hw hs =>
      rw [hb, Table.total_insert_of_lookup hw]
      simp [hs]
  | released hw hs hstate =>
      rw [hb, Table.total_insert_of_lookup hw]
      rcases hs with hs | hs <;> rcases hstate with rfl | rfl <;> simp [hs]
  | begun hw hs _ _ _ _ _ _ _ _ hsend =>
      rw [Table.total_insert_fresh hsend.fresh, linkedAmount_none hsend.payment, hb,
        Table.total_insert_of_lookup hw]
      simp [hs]
  | unpaid _ _ _ hw hs hsend hx hnone =>
      rw [Table.total_insert_of_lookup hsend, linkedAmount_no_event rfl hnone,
        linkedAmount_none hx.unpaid, hb, Table.total_insert_of_lookup hw]
      simp [hs]
  | paid _ _ _ hw hs hsend hx hevent ht hamount =>
      rw [Table.total_insert_of_lookup hsend, linkedAmount_event rfl hevent ht,
        linkedAmount_none hx.unpaid, hb, Table.total_insert_of_lookup hw, hamount]
      simp [hs]
      ring
  | topupBegun hnone hs _ hsend =>
      rw [Table.total_insert_fresh hsend.fresh, linkedAmount_none hsend.payment, hb,
        Table.total_insert_fresh hnone]
      simp [hs, TopupState.sent]
  | topupReconciled hu hs hsend hx hstate =>
      rcases hstate with ⟨hstate, hnone⟩ | ⟨rfl, e, row, tx, hevent, -, hrow, hamount, -⟩
      · rw [Table.total_insert_of_lookup hsend, linkedAmount_no_event rfl hnone,
          linkedAmount_none hx.unpaid, hb, Table.total_insert_of_lookup hu]
        rcases hstate with rfl | rfl <;> simp [hs, TopupState.sent]
      · rw [Table.total_insert_of_lookup hsend, linkedAmount_event rfl hevent hrow,
          linkedAmount_none hx.unpaid, hb, Table.total_insert_of_lookup hu, hamount]
        simp [hs, TopupState.sent]
        ring
  | topupCredited hu hs =>
      rw [hb, Table.total_insert_of_lookup hu]
      simp [hs, TopupState.sent]
  | transferSaved => exact hsame.trans hb
  | attributed => exact hsame.trans hb
  | rewarded => exact hsame.trans hb
  | _ => exact hb

end Funds

end TigPool
