/-
# `TigPool.Refinement.Withdrawals` — the payment lifecycle

What the operations of `withdrawals.py` do to the funds.  `reconcile` is the second
of two transactions; what the first has left behind for it is a hypothesis here and
an invariant of the system later.
-/
import TigPool.Refinement.Custody

namespace TigPool

open Basis

variable {db db' : Db} {identity memberId : Uuid}

namespace Withdrawals

theorem event_frame {kind actor : String} {details : Json} {key : String}
    (h : Withdrawals.event db identity kind actor details key = .ok db') :
    db'.funds = db.funds ∧ db.Moves Change.Quiet db' := by
  simp only [Withdrawals.event, bind_eq_ok, require_eq_ok, exists_const] at h
  obtain ⟨-, h⟩ := h
  split at h
  next =>
    simp only [bind_eq_ok, require_eq_ok, exists_const, pure_eq_ok] at h
    obtain ⟨-, rfl⟩ := h
    exact ⟨rfl, .refl db⟩
  next =>
    obtain rfl := Except.ok.inj h
    exact ⟨rfl, .refl, rfl, rfl, rfl, rfl, .of_eq rfl⟩

/-! ## Requests and decisions -/

theorem request_key (hf : db.funds.Lawful) (hnone : db.funds.withdrawals.lookup identity = none) :
    EventKey.withdrawalReserve identity ∉ db.funds.ledger.journals := by
  refine hf.explained.fresh ?_
  rintro m ⟨w, hw, -⟩
  rw [hnone] at hw
  cases hw

/-- A fresh row, with what both kinds of requests have checked about it. -/
theorem fresh_moves (hf : db.funds.Lawful) {w : Withdrawal} {a : AccountId} {l l' : Ledger}
    {kind : String} {details : Json} (hsource : source w = a)
    (haccount : db.funds.ledger.account (pending identity) .withdrawal = .ok l)
    (hpost : l.post (.withdrawalReserve identity) kind (requestMovements identity w) details none
      = .ok l')
    (hnone : db.funds.withdrawals.lookup identity = none) (hfresh : w.Fresh)
    (hone : ∀ {k w'}, db.funds.withdrawals.lookup k = some w' → w'.state.isPending →
      ¬ (w'.memberId = w.memberId ∧ w'.kind = w.kind))
    (hspaced : ∀ {m row paid}, w.memberId = some m → db.funds.members.lookup m = some row →
      row.lastPaidAt = some paid → paid + days 7 ≤ w.createdAt)
    (hknown : ∀ {m}, w.memberId = some m → m ∈ db.funds.members) :
    db.Moves (Only [.requested identity a]) ((db.withLedger l').putWithdrawal identity w) := by
  subst hsource
  have hpath : Funds.Path Change.Quiet db.funds { db.funds with ledger := l } :=
    Ledger.account_path haccount rfl
  have hkey : EventKey.withdrawalReserve identity ∉ l.journals :=
    @request_key (db.withLedger l) _ (hpath.lawful hf) hnone
  exact .of_step hpath.only .change
    (.requested (f := { db.funds with ledger := l }) hnone hfresh.state hfresh.paidEvent
      hfresh.review hfresh.kind hone hspaced hknown
      (.of_post hpost hkey requestMovements_balanced fun _ => rfl))

theorem request_moves (hf : db.funds.Lawful) {requestKey : String} {amount : ℤ} {out : Uuid}
    (h : request db memberId requestKey amount identity = .ok (db', out)) :
    db.Moves (Only [.requested identity (available memberId)]) db' := by
  simp only [request, bind_eq_ok, require_eq_ok, exists_const, units_eq_ok, memberLock,
    fetch_eq_ok] at h
  obtain ⟨amount, ⟨rfl, -⟩, -, member, hmember, h⟩ := h
  split at h
  next =>
    simp only [bind_eq_ok, require_eq_ok, exists_const, pure_eq_ok, Prod.mk.injEq] at h
    obtain ⟨-, rfl, -⟩ := h
    exact .refl db
  next =>
    simp only [bind_eq_ok, require_eq_ok, exists_const, pure_eq_ok, Prod.mk.injEq] at h
    obtain ⟨hspaced, hone, l, haccount, l', hpost, hfresh, rfl, -⟩ := h
    have hnone : db.funds.withdrawals.lookup identity = none := AList.lookup_eq_none.mpr hfresh
    refine fresh_moves hf rfl haccount hpost hnone ⟨rfl, rfl, rfl, by simp⟩ ?_ ?_ ?_
    · rintro k w hw hpending ⟨hsame, -⟩
      have := Table.any_eq_false.mp hone k w hw
      simp_all
    · rintro m row paid ⟨⟩ hrow hpaid
      obtain rfl := Option.some.inj (hmember.symm.trans hrow)
      simpa [hpaid] using hspaced
    · rintro m ⟨⟩
      exact AList.lookup_isSome.mp (by rw [hmember]; rfl)

theorem requestOperator_moves (hf : db.funds.Lawful) {requestKey : String} {amount reserve : ℤ}
    {network : Network} {recipient actor reason : String} {out : Uuid}
    (h : requestOperator db requestKey amount network recipient reserve actor reason identity
      = .ok (db', out)) :
    db.Moves (Only [.requested identity (.operator .custody .TIG)]) db' := by
  simp only [requestOperator, bind_eq_ok, require_eq_ok, exists_const, units_eq_ok] at h
  obtain ⟨amount, ⟨rfl, -⟩, reserve, -, recipient, -, -, -, db₁, hbind, h⟩ := h
  obtain ⟨-, hbound⟩ := Custody.bind_spec hbind
  refine hbound.only.trans ?_
  have hf₁ := hbound.lawful hf
  split at h
  next =>
    simp only [bind_eq_ok, require_eq_ok, exists_const, pure_eq_ok, Prod.mk.injEq] at h
    obtain ⟨-, db₂, hevent, rfl, -⟩ := h
    exact (event_frame hevent).2.only
  next =>
    simp only [bind_eq_ok, require_eq_ok, exists_const, pure_eq_ok, Prod.mk.injEq] at h
    obtain ⟨hone, l, haccount, -, l', hpost, hfresh, db₂, hevent, rfl, -⟩ := h
    have hnone : db₁.funds.withdrawals.lookup identity = none := AList.lookup_eq_none.mpr hfresh
    refine .trans ?_ (event_frame hevent).2.only
    refine fresh_moves hf₁ rfl haccount hpost hnone ⟨rfl, rfl, rfl, by simp⟩ ?_ ?_ ?_
    · rintro k w hw hpending ⟨-, hkind⟩
      have := Table.any_eq_false.mp hone k w hw
      simp_all
    · rintro m row paid ⟨⟩
    · rintro m ⟨⟩

theorem approve_moves {network : Network} {feeModel actor : String} {evidence : Json}
    (h : approve db identity network feeModel actor evidence = .ok db') :
    db.Moves (Only [.approved identity]) db' := by
  simp only [approve, locked, bind_eq_ok, require_eq_ok, exists_const, fetch_eq_ok] at h
  obtain ⟨-, db₁, hbind, row, hrow, h⟩ := h
  obtain ⟨hdb, hbound⟩ := Custody.bind_spec hbind
  refine hbound.only.trans ?_
  split at h
  next =>
    simp only [bind_eq_ok, require_eq_ok, exists_const, pure_eq_ok] at h
    obtain ⟨-, rfl⟩ := h
    exact .refl _
  next hnone =>
    simp only [bind_eq_ok, require_eq_ok, exists_const, pure_eq_ok] at h
    obtain ⟨hstate, hrecipient, rfl⟩ := h
    refine .of_step .refl .change (.approved hrow hstate hnone hrecipient ?_)
    rw [hdb]
    rfl

theorem release_moves (hf : db.funds.Lawful) {actor reason eventKey : String} {owner : Option Uuid}
    {out : Uuid} (h : release db identity actor reason eventKey owner = .ok (db', out)) :
    ∃ row, db.funds.withdrawals.lookup identity = some row ∧
      (owner = none ∨ row.memberId = owner) ∧
      db.Moves (Only [.released identity (source row)]) db' := by
  simp only [release, locked, bind_eq_ok, require_eq_ok, exists_const, fetch_eq_ok] at h
  obtain ⟨-, row, hrow, howner, hstate, db₁, hevent, h⟩ := h
  refine ⟨row, hrow, howner, ?_⟩
  obtain ⟨hsame, hmoves⟩ := event_frame hevent
  refine hmoves.only.trans ?_
  by_cases hdone : row.state = if owner.isSome then .cancelled else .rejected
  · rw [if_pos hdone] at h
    obtain ⟨rfl, -⟩ := Prod.mk.inj (Except.ok.inj h)
    exact .refl _
  · simp only [if_neg hdone, bind_eq_ok, pure_eq_ok, Prod.mk.injEq] at h
    obtain ⟨l, hpost, rfl, -⟩ := h
    have hopen : row.state = .requested ∨ row.state = .approved := by
      rcases hstate with hs | hs | hs
      · exact .inl hs
      · exact .inr hs
      · exact absurd hs hdone
    have hkey : EventKey.withdrawalRelease identity ∉ db₁.funds.ledger.journals := by
      refine (hmoves.lawful hf).explained.fresh ?_
      rintro m ⟨w, hw, hreleased, -⟩
      rw [hsame] at hw
      obtain rfl := Option.some.inj (hrow.symm.trans hw)
      rcases hopen with hs | hs <;> simp [Withdrawal.Released, hs] at hreleased
    refine .of_step .refl .change (.released (hsame ▸ hrow) hopen ?_
      (.of_post hpost hkey releaseMovements_balanced fun _ => rfl))
    cases owner
    · exact .inl rfl
    · exact .inr rfl

/-! ## Attempts -/

theorem begin_moves (hf : db.funds.Lawful) {requestKey : String} {preflight : CustodyPreflight}
    {feeLimit : ℤ} {actor : String} {operatorReserve : Option ℤ} {around : Surroundings}
    {attemptId out : Uuid} {cap : Option SpendingCap}
    (hclock : ∀ {w}, db.funds.withdrawals.lookup identity = some w → w.createdAt ≤ db.clock)
    (h : Withdrawals.begin db identity requestKey preflight feeLimit actor operatorReserve around
      attemptId cap = .ok (db', out)) :
    db.Moves (Only [.begun identity attemptId]) db' := by
  simp only [Withdrawals.begin, locked, bind_eq_ok, require_eq_ok, exists_const, units_eq_ok,
    fetch_eq_ok] at h
  obtain ⟨feeLimit, ⟨rfl, -⟩, retained, -, -, db₁, hbind, row, hrow, h⟩ := h
  obtain ⟨hdb₁, hbound⟩ := Custody.bind_spec hbind
  refine hbound.only.trans ?_
  split at h
  next =>
    simp only [bind_eq_ok, require_eq_ok, exists_const, pure_eq_ok, Prod.mk.injEq] at h
    obtain ⟨-, rfl, -⟩ := h
    exact .refl _
  next =>
    simp only [bind_eq_ok, require_eq_ok, exists_const, fetch_eq_ok, pure_eq_ok,
      Prod.mk.injEq] at h
    obtain ⟨-, hstate, -, review, hreview, ⟨-, -, hsender⟩, -, -, -, -, -, db₂, hnonce, l, haccount,
      l', hpost, hfresh, rfl, -⟩ := h
    obtain ⟨db₃, send, hbind', hsend, hfrom, -, rfl⟩ := Custody.reserveNonce_spec hnonce
    obtain ⟨hdb₃, hbound'⟩ := Custody.bind_spec hbind'
    refine hbound'.only.trans ?_
    have hnone : db₃.funds.withdrawalAttempts.lookup attemptId = none :=
      AList.lookup_eq_none.mpr hfresh
    have hrow₃ : db₃.funds.withdrawals.lookup identity = some row := by rw [hdb₃]; exact hrow
    have hcreated : row.createdAt ≤ db₁.clock := by
      rw [hdb₁] at hrow ⊢
      exact hclock hrow
    have hpath : Funds.Path Change.Quiet db₃.funds { db₃.funds with ledger := l } :=
      Ledger.account_path haccount rfl
    have hkey : EventKey.attemptGas attemptId ∉ l.journals := by
      refine (hpath.lawful (hbound'.lawful (hbound.lawful hf))).explained.fresh ?_
      rintro m ⟨a, ha, -⟩
      rw [hnone] at ha
      cases ha
    have hclock₃ : db₃.clock = db₁.clock := hbound'.clock
    exact .of_step hpath.only .change (.begun (f := { db₃.funds with ledger := l }) hrow₃ hstate
      hreview rfl rfl rfl rfl (hsender.trans hfrom.symm) (hclock₃ ▸ hcreated) hnone
      ⟨hsend.fresh, hsend.kind, hsend.payment, hsend.authorization, hsend.route, hsend.nonce⟩
      (.of_post hpost hkey gasMovements_balanced fun _ => rfl))

/-- The only attempt that can be new is checked against the cap, and sent now. -/
theorem begin_gas {requestKey : String} {preflight : CustodyPreflight} {feeLimit : ℤ}
    {actor : String} {operatorReserve : Option ℤ} {around : Surroundings} {attemptId out : Uuid}
    {cap : Option SpendingCap}
    (h : Withdrawals.begin db identity requestKey preflight feeLimit actor operatorReserve around
      attemptId cap = .ok (db', out)) :
    db'.funds.protocolTopups = db.funds.protocolTopups ∧
      (db'.funds.withdrawalAttempts = db.funds.withdrawalAttempts ∨ ∃ a u,
        Spending.checkGas db a.feeLimit cap = .ok u ∧ a.sentAt = db.clock ∧
        db.funds.withdrawalAttempts.lookup attemptId = none ∧
        db'.funds.withdrawalAttempts = AList.insert attemptId a db.funds.withdrawalAttempts) := by
  simp only [Withdrawals.begin, locked, bind_eq_ok, require_eq_ok, exists_const, units_eq_ok,
    fetch_eq_ok] at h
  obtain ⟨feeLimit, ⟨rfl, -⟩, retained, -, -, db₁, hbind, row, hrow, h⟩ := h
  obtain ⟨rfl, -⟩ := Custody.bind_spec hbind
  split at h
  next =>
    simp only [bind_eq_ok, require_eq_ok, exists_const, pure_eq_ok, Prod.mk.injEq] at h
    obtain ⟨-, rfl, -⟩ := h
    exact ⟨rfl, .inl rfl⟩
  next =>
    simp only [bind_eq_ok, require_eq_ok, exists_const, fetch_eq_ok, pure_eq_ok,
      Prod.mk.injEq] at h
    obtain ⟨-, -, -, review, -, -, -, -, -, u, hcap, db₂, hnonce, l, -, l', -, hfresh, rfl, -⟩ := h
    obtain ⟨db₃, send, hbind', -, -, -, rfl⟩ := Custody.reserveNonce_spec hnonce
    obtain ⟨rfl, -⟩ := Custody.bind_spec hbind'
    refine ⟨rfl, .inr ⟨_, u, ?_, ?_, AList.lookup_eq_none.mpr hfresh, rfl⟩⟩
    · exact hcap
    · rfl

theorem reconcileEvidence_spec {attemptId : Uuid} {transaction : ConfirmedTransaction}
    {transfer : Option ConfirmedTransfer}
    (h : reconcileEvidence db attemptId transaction transfer = .ok db') :
    db.Moves Change.Quiet db' ∧
      (∃ row, db'.funds.chainTransactions.lookup
          (transaction.network.chainId, transaction.txHash) = some row ∧
        Custody.Records row transaction) ∧
      ∃ a, db.funds.withdrawalAttempts.lookup attemptId = some a ∧
        a.sentAt ≤ transaction.blockTimestamp + seconds 5 := by
  simp only [reconcileEvidence, locked, bind_eq_ok, require_eq_ok, exists_const, fetch_eq_ok] at h
  obtain ⟨a, ha, -, row, -, review, -, -, -, htime, hsave⟩ := h
  obtain ⟨transactions, tx, rfl, htx, hrecords, hmoves⟩ := Custody.saveTransaction_spec hsave
  exact ⟨hmoves, ⟨tx, htx, hrecords⟩, a, ha, htime⟩

theorem attemptOutcome_cases {review : WithdrawalReview} {row : Withdrawal}
    {transaction : ConfirmedTransaction} {transfer : Option ConfirmedTransfer}
    {outcome : AttemptOutcome}
    (h : attemptOutcome review row transaction transfer = .ok outcome) :
    (outcome ≠ .paid ∧ transfer = none) ∨ (outcome = .paid ∧ ∃ t, transfer = some t ∧
      t.sender = review.sender ∧ t.recipient = row.recipient ∧ t.amount = row.amount) := by
  unfold attemptOutcome at h
  split at h
  next =>
    simp only [bind_eq_ok, require_eq_ok, exists_const, pure_eq_ok] at h
    obtain ⟨hnone, rfl⟩ := h
    exact .inl ⟨by simp, hnone⟩
  next =>
    split at h
    next t =>
      simp only [bind_eq_ok, require_eq_ok, exists_const, pure_eq_ok] at h
      obtain ⟨⟨-, -, hsender, hrecipient, hamount, -⟩, rfl⟩ := h
      exact .inr ⟨rfl, t, rfl, hsender, hrecipient, hamount⟩
    next =>
      simp only [bind_eq_ok, require_eq_ok, exists_const, pure_eq_ok] at h
      obtain ⟨-, rfl⟩ := h
      exact .inl ⟨by simp, rfl⟩

theorem markPaid_eq {row : Withdrawal} {e : EventId} {paidAt : Time} :
    ∃ members, markPaid db identity row e paidAt = { db with funds := { db.funds with
        withdrawals :=
          AList.insert identity { row with state := .paid, paidEvent := some e } db.funds.withdrawals
        members := members } } ∧
      ∀ m, members.lookup m = (db.funds.members.lookup m).map fun r =>
        if row.memberId = some m then { r with lastPaidAt := some paidAt } else r := by
  cases howner : row.memberId with
  | none =>
      refine ⟨db.funds.members, ?_, fun m => by simp⟩
      simp only [markPaid, howner, Db.putWithdrawal]
  | some owner =>
      cases hlookup : db.funds.members.lookup owner with
      | none =>
          refine ⟨db.funds.members, ?_, fun m => ?_⟩
          · simp only [markPaid, howner, Db.putWithdrawal, hlookup]
          · by_cases hm : m = owner
            · subst hm
              simp [hlookup]
            · simp [Ne.symm hm]
      | some member =>
          refine ⟨AList.insert owner { member with lastPaidAt := some paidAt } db.funds.members, ?_,
            fun m => ?_⟩
          · simp only [markPaid, howner, Db.putWithdrawal, Db.putMember, hlookup]
          · by_cases hm : m = owner
            · subst hm
              simp [hlookup]
            · simp [Ne.symm hm, hm]

section Settle

variable {attemptId : Uuid} {attempt : WithdrawalAttempt} {row : Withdrawal}

/-- An attempt that has no outcome has not been paid and not been settled. -/
theorem unresolved (hf : db.funds.Lawful)
    (ha : db.funds.withdrawalAttempts.lookup attemptId = some attempt)
    (hnone : attempt.outcome = none) :
    (∀ {s}, db.funds.custodySends.lookup attemptId = some s → s.payment = none) ∧
      EventKey.attemptReconcile attemptId ∉ db.funds.ledger.journals := by
  constructor
  · intro s hs
    obtain ⟨w, s', -, hs', -, hfits⟩ := PaymentsFit.attempt hf.paid ha
    obtain rfl := Option.some.inj (hs.symm.trans hs')
    cases hfits with
    | unresolved _ _ hp => exact hp
    | unpaid ho | paid ho =>
        rw [hnone] at ho
        cases ho
  · refine hf.explained.fresh ?_
    rintro m ⟨a, o, w, ha', ho, -⟩
    obtain rfl := Option.some.inj (ha.symm.trans ha')
    rw [hnone] at ho
    cases ho

/-- Gas is paid out of its hold, the rest comes back. -/
theorem gasReturn_balanced {limit fee : ℕ} : Balanced AccountId.place
    [(gasHold attemptId, -(limit : ℤ)), (.operator .custody .NATIVE, (limit : ℤ) - fee),
     (.external .custody .NATIVE, (fee : ℤ))] :=
  .within (.NATIVE, .custody) (by simp [AccountId.place, AccountId.identity]) (by simp)

/-- The last writes for an attempt that can no longer pay. -/
theorem fail_moves (hf : db.funds.Lawful)
    (ha : db.funds.withdrawalAttempts.lookup attemptId = some attempt)
    (hnone : attempt.outcome = none)
    (hw : db.funds.withdrawals.lookup attempt.withdrawalId = some row)
    (hstate : row.state = .uncertain) {outcome : AttemptOutcome} (hne : outcome ≠ .paid)
    {transaction : ConfirmedTransaction} {fee : ℕ} {l : Ledger}
    (hrecorded : db.funds.ledger.Recorded (.attemptReconcile attemptId)
      (reconcileMovements attempt.withdrawalId attemptId row attempt outcome fee) l)
    {journal : EventKey} {db₁ : Db}
    (hpay : Custody.recordPayment (db.withLedger l) attemptId transaction none journal = .ok db₁) :
    db.Moves (Only [.reconciled attempt.withdrawalId attemptId outcome])
      ((db₁.putAttempt attemptId { attempt with
          outcome := some ⟨transaction.network.chainId, transaction.txHash, outcome, fee⟩ }).putWithdrawal
        attempt.withdrawalId { row with state := .approved }) := by
  obtain ⟨s, p, authorization, hs, hexplains, -, -, hevent, -, -, -, -, rfl⟩ :=
    Custody.recordPayment_spec hpay (unresolved hf ha hnone).1
  exact .of_step .refl .change (@Funds.Step.unpaid db.funds attempt.withdrawalId attemptId row attempt
    s p authorization ⟨transaction.network.chainId, transaction.txHash, outcome, fee⟩ l ha hnone rfl hw
    hstate hs ⟨hexplains.unpaid, hexplains.chain, hexplains.saved, hexplains.transaction,
      hexplains.event⟩ hevent hne hrecorded)

/-- The last writes of a payment, whichever way it was sent. -/
theorem pay_moves (hf : db.funds.Lawful)
    (ha : db.funds.withdrawalAttempts.lookup attemptId = some attempt)
    (hnone : attempt.outcome = none)
    (hw : db.funds.withdrawals.lookup attempt.withdrawalId = some row)
    (hstate : row.state = .uncertain) {e : EventId} {t : Transfer}
    (ht : db.funds.transfers.lookup e = some t) (hamount : t.amount = row.amount)
    (hrecipient : t.recipient = row.recipient) (hsender : some t.sender = db.funds.wallet)
    (hunused : ∀ {k w}, db.funds.withdrawals.lookup k = some w → w.paidEvent ≠ some e)
    {transaction : ConfirmedTransaction} {tx : ChainTransaction}
    (htx : db.funds.chainTransactions.lookup (transaction.network.chainId, transaction.txHash)
      = some tx)
    (hrecords : Custody.Records tx transaction)
    (htime : attempt.sentAt ≤ transaction.blockTimestamp + seconds 5) {fee : ℕ} {l : Ledger}
    (hrecorded : db.funds.ledger.Recorded (.attemptReconcile attemptId)
      (reconcileMovements attempt.withdrawalId attemptId row attempt .paid fee) l)
    {journal : EventKey} {sponsorship : Option Custody.Sponsorship} {db₁ : Db}
    (hpay : Custody.recordPayment (db.withLedger l) attemptId transaction (some e) journal sponsorship
      = .ok db₁) :
    db.Moves (Only [.reconciled attempt.withdrawalId attemptId .paid])
      (markPaid (db₁.putAttempt attemptId { attempt with
          outcome := some ⟨transaction.network.chainId, transaction.txHash, .paid, fee⟩ })
        attempt.withdrawalId row e transaction.blockTimestamp) := by
  obtain ⟨s, p, authorization, hs, hexplains, -, -, hevent, -, -, -, -, rfl⟩ :=
    Custody.recordPayment_spec hpay (unresolved hf ha hnone).1
  have hblock : tx.blockTimestamp = transaction.blockTimestamp :=
    congrArg ChainTransaction.blockTimestamp hrecords
  obtain ⟨members, heq, hmembers⟩ := markPaid_eq
  rw [heq]
  rw [← hblock] at htime
  refine .of_step .refl .change (.paid ha hnone rfl hw hstate hs
    ⟨hexplains.unpaid, hexplains.chain, hexplains.saved, hexplains.transaction, hexplains.event⟩
    hevent ht hamount hrecipient hsender rfl htx htime hunused ?_ hrecorded)
  rw [hblock]
  exact hmembers

theorem reconcile_moves (hf : db.funds.Lawful) {transaction : ConfirmedTransaction}
    {transfer : Option ConfirmedTransfer} {out : AttemptOutcome}
    (hsaved : ∃ tx, db.funds.chainTransactions.lookup
        (transaction.network.chainId, transaction.txHash) = some tx ∧
      Custody.Records tx transaction)
    (htime : ∀ {a}, db.funds.withdrawalAttempts.lookup attemptId = some a →
      a.sentAt ≤ transaction.blockTimestamp + seconds 5)
    (h : reconcile db attemptId transaction transfer = .ok (db', out)) :
    ∃ a, db.funds.withdrawalAttempts.lookup attemptId = some a ∧
      db.Moves (Only [.reconciled a.withdrawalId attemptId out]) db' := by
  simp only [reconcile, locked, bind_eq_ok, require_eq_ok, exists_const, fetch_eq_ok] at h
  obtain ⟨db₁, hbind, attempt, ha, row, hw, review, hreview, -, -, -, h⟩ := h
  obtain ⟨hdb₁, hbound⟩ := Custody.bind_spec hbind
  have ha₀ : db.funds.withdrawalAttempts.lookup attemptId = some attempt := by rw [hdb₁] at ha; exact ha
  refine ⟨attempt, ha₀, hbound.only.trans ?_⟩
  have hf₁ := hbound.lawful hf
  split at h
  next previous hprevious =>
    simp only [bind_eq_ok, require_eq_ok, exists_const, pure_eq_ok, Prod.mk.injEq] at h
    obtain ⟨-, -, db₂, hsave, rfl, -⟩ := h
    cases transfer with
    | none =>
        obtain rfl := Except.ok.inj hsave
        exact .refl _
    | some t =>
        obtain ⟨_, _, -, -, -, -, -, hmoves⟩ := Deposits.saveTransfer_spec hsave
        exact hmoves.only
  next hnone =>
    simp only [bind_eq_ok, require_eq_ok, exists_const] at h
    obtain ⟨hstate, outcome, houtcome, db₂, hsave, hunused, l, hpost, db₃, hpay, h⟩ := h
    have hkey := (unresolved hf₁ ha hnone).2
    rcases attemptOutcome_cases houtcome with
      ⟨hne, rfl⟩ | ⟨rfl, t, rfl, hsender, hrecipient, hamount⟩
    · obtain rfl := Except.ok.inj hsave
      split at h
      next heq => cases heq
      next =>
        simp only [pure_eq_ok, Prod.mk.injEq] at h
        obtain ⟨rfl, rfl⟩ := h
        refine fail_moves hf₁ ha hnone hw hstate hne (.of_post hpost hkey ?_ fun a => ?_) hpay
        · rw [if_neg hne, List.append_nil]
          exact gasReturn_balanced
        · simp [reconcileMovements, hne]
    · obtain ⟨transfers, t', hdb₂, ht', hfacts, -, -, hmoves⟩ := Deposits.saveTransfer_spec hsave
      refine hmoves.only.trans ?_
      obtain ⟨tx, htx, hrecords⟩ := hsaved
      simp only [pure_eq_ok, Prod.mk.injEq] at h
      obtain ⟨rfl, rfl⟩ := h
      have hf₂ := hmoves.lawful hf₁
      have ha₂ : db₂.funds.withdrawalAttempts.lookup attemptId = some attempt := by
        rw [hdb₂]; exact ha
      have hw₂ : db₂.funds.withdrawals.lookup attempt.withdrawalId = some row := by
        rw [hdb₂]; exact hw
      have htx₂ : db₂.funds.chainTransactions.lookup
          (transaction.network.chainId, transaction.txHash) = some tx := by
        rw [hdb₂, hdb₁]; exact htx
      have hsender₂ : some t'.sender = db₂.funds.wallet := by
        rw [hfacts.2.2.2.1, hsender]
        exact hf₂.rows.reviewed hw₂ hreview
      have hrecorded : db₂.funds.ledger.Recorded (.attemptReconcile attemptId)
          (reconcileMovements attempt.withdrawalId attemptId row attempt .paid transaction.fee) l := by
        rw [if_pos rfl] at hpost
        refine .of_post hpost (unresolved hf₂ ha₂ hnone).2 ?_ fun a => ?_
        · exact gasReturn_balanced.append (Balanced.transfer rfl row.amount)
        · simp [reconcileMovements]
      have hfree : db₂.funds.withdrawals.any (fun _ w => w.paidEvent = some t.eventId) = false :=
        of_decide_eq_true hunused
      refine pay_moves hf₂ ha₂ hnone hw₂ hstate (by rw [hdb₂]; exact ht')
        (hfacts.2.2.2.2.2.trans hamount) (hfacts.2.2.2.2.1.trans hrecipient) hsender₂ ?_ htx₂ hrecords
        (htime ha₀) hrecorded hpay
      intro k w hk
      simpa using Table.any_eq_false.mp hfree k w hk

theorem reconcileSponsored_moves (hf : db.funds.Lawful) {recovery : SponsoredWithdrawal}
    {actor reason : String} {out : AttemptOutcome}
    (h : reconcileSponsored db attemptId recovery actor reason = .ok (db', out)) :
    ∃ a, db.funds.withdrawalAttempts.lookup attemptId = some a ∧
      db.Moves (Only [.reconciled a.withdrawalId attemptId .paid]) db' := by
  simp only [reconcileSponsored, locked, bind_eq_ok, require_eq_ok, exists_const, fetch_eq_ok] at h
  obtain ⟨-, -, db₁, hbind, attempt, ha, row, hw, review, hreview, ⟨-, hroute, -⟩, ⟨-, -, hnetwork⟩,
    ⟨htime, -⟩, ⟨hsender, hrecipient, hamount, -⟩, h⟩ := h
  obtain ⟨hdb₁, hbound⟩ := Custody.bind_spec hbind
  have ha₀ : db.funds.withdrawalAttempts.lookup attemptId = some attempt := by
    rw [hdb₁] at ha
    exact ha
  refine ⟨attempt, ha₀, hbound.only.trans ?_⟩
  have hf₁ := hbound.lawful hf
  split at h
  next previous hprevious =>
    simp only [bind_eq_ok, require_eq_ok, exists_const, pure_eq_ok, Prod.mk.injEq] at h
    obtain ⟨-, db₂, hsave, db₃, hsave', rfl, -⟩ := h
    obtain ⟨_, _, -, -, -, hmoves⟩ := Custody.saveTransaction_spec hsave
    obtain ⟨_, _, -, -, -, -, -, hmoves'⟩ := Deposits.saveTransfer_spec hsave'
    exact (hmoves.trans hmoves').only
  next hnone =>
    simp only [bind_eq_ok, require_eq_ok, exists_const, pure_eq_ok, Prod.mk.injEq] at h
    obtain ⟨hstate, db₂, hsave, db₃, hsave', hunused, l, hpost, db₄, hpay, rfl, -⟩ := h
    obtain ⟨transactions, tx, hdb₂, htx, hrecords, hmoves⟩ := Custody.saveTransaction_spec hsave
    obtain ⟨transfers, t', hdb₃, ht', hfacts, -, -, hmoves'⟩ := Deposits.saveTransfer_spec hsave'
    refine (hmoves.trans hmoves').only.trans ?_
    have hf₃ := hmoves'.lawful (hmoves.lawful hf₁)
    have ha₃ : db₃.funds.withdrawalAttempts.lookup attemptId = some attempt := by
      rw [hdb₃, hdb₂]
      exact ha
    have hw₃ : db₃.funds.withdrawals.lookup attempt.withdrawalId = some row := by
      rw [hdb₃, hdb₂]
      exact hw
    have htx₃ : db₃.funds.chainTransactions.lookup
        (recovery.transaction.network.chainId, recovery.transaction.txHash) = some tx := by
      rw [hdb₃, hdb₂]
      exact htx
    have hsender₃ : some t'.sender = db₃.funds.wallet := by
      rw [hfacts.2.2.2.1, hsender, hroute, hdb₃, hnetwork]
      rfl
    have hrecorded : db₃.funds.ledger.Recorded (.attemptReconcile attemptId)
        (reconcileMovements attempt.withdrawalId attemptId row attempt .paid 0) l := by
      refine .of_post hpost (unresolved hf₃ ha₃ hnone).2 ?_ fun a => ?_
      · exact (Balanced.transfer (a := gasHold attemptId) rfl attempt.feeLimit).append
          (Balanced.transfer (a := pending attempt.withdrawalId) rfl row.amount)
      · simp [reconcileMovements]
    refine pay_moves hf₃ ha₃ hnone hw₃ hstate (by rw [hdb₃]; exact ht')
      (hfacts.2.2.2.2.2.trans hamount) (hfacts.2.2.2.2.1.trans hrecipient) hsender₃ ?_ htx₃ hrecords
      htime hrecorded hpay
    intro k w hk
    simpa using Table.any_eq_false.mp hunused k w hk

end Settle

end Withdrawals

end TigPool
