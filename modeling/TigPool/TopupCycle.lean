/-
# `TigPool.TopupCycle` — one custody, one nonce, and the two legs of a top-up

Withdrawals and top-ups leave custody from one wallet, so they share its nonces, and the
transactions and transfers that the chain shows.  Each of these serves one send.  What a
top-up holds waits until the chain has decided; what has left custody is credited at TIG
once, later, and to the unit.
-/
import TigPool.WithdrawalCycle

namespace TigPool

open Basis

/-! ## One nonce, one transaction -/

namespace CustodySend

/-- The two sends would leave from one wallet with one nonce. -/
def SameNonce (s s' : CustodySend) : Prop :=
  s.chainId = s'.chainId ∧ s.sender = s'.sender ∧ s.nonce = s'.nonce

/-- One transaction of the chain explains the two sends. -/
def SameTransaction (s s' : CustodySend) : Prop :=
  ∃ p p', s.payment = some p ∧ s'.payment = some p' ∧ p.chainId = p'.chainId ∧
    p.txHash = p'.txHash

theorem SameNonce.symm {s s' : CustodySend} (h : s.SameNonce s') : s'.SameNonce s :=
  ⟨h.1.symm, h.2.1.symm, h.2.2.symm⟩

theorem SameTransaction.symm {s s' : CustodySend} (h : s.SameTransaction s') :
    s'.SameTransaction s := by
  obtain ⟨p, p', hp, hp', hchain, hhash⟩ := h
  exact ⟨p', p, hp', hp, hchain.symm, hhash.symm⟩

end CustodySend

namespace Funds

variable {f f' : Funds} {c : Change} {id : Uuid} {s s' : CustodySend} {t : ProtocolTopup}

/-- No two sends share a nonce or a transaction. -/
structure OneSendEach (f : Funds) : Prop where
  nonce : Table.Distinct CustodySend.SameNonce f.custodySends
  transaction : Table.Distinct CustodySend.SameTransaction f.custodySends

theorem OneSendEach.begun (h : f.OneSendEach) {kind : SendKind} (hs : f.FreshSend id s kind) :
    Table.Distinct CustodySend.SameNonce (AList.insert id s f.custodySends) ∧
      Table.Distinct CustodySend.SameTransaction (AList.insert id s f.custodySends) := by
  refine ⟨h.nonce.insert (fun _ _ => .symm) fun k s' _ hs' hsame => ?_,
    h.transaction.insert (fun _ _ => .symm) fun k s' _ _ hsame => ?_⟩
  · obtain ⟨hchain, hsender, hnonce⟩ := hsame
    exact hs.nonce hs' ⟨hchain.symm, hsender.symm, hnonce.symm⟩
  · obtain ⟨p, -, hp, -⟩ := hsame
    rw [hs.payment] at hp
    cases hp

theorem OneSendEach.paid (h : f.OneSendEach) (hs : f.custodySends.lookup id = some s)
    {p : CustodyPayment} (hx : f.Explains s p) {authorization : Option AuthorizationPayment} :
    Table.Distinct CustodySend.SameNonce
        (AList.insert id { s with payment := some p, authorization } f.custodySends) ∧
      Table.Distinct CustodySend.SameTransaction
        (AList.insert id { s with payment := some p, authorization } f.custodySends) := by
  refine ⟨h.nonce.replace (fun _ _ => .symm) hs fun _ hsame => hsame,
    h.transaction.insert (fun _ _ => .symm) fun k s' _ hs' hsame => ?_⟩
  obtain ⟨_, p', ⟨⟩, hp', hchain, hhash⟩ := hsame
  exact hx.transaction hs' hp' ⟨hchain.symm, hhash.symm⟩

theorem OneSendEach.step (h : f.OneSendEach) (hs : Step f c f') : f'.OneSendEach := by
  cases hs with
  | begun _ _ _ _ _ _ _ _ _ _ hsend =>
      obtain ⟨hnonce, htransaction⟩ := h.begun hsend
      exact ⟨hnonce, htransaction⟩
  | topupBegun _ _ _ hsend =>
      obtain ⟨hnonce, htransaction⟩ := h.begun hsend
      exact ⟨hnonce, htransaction⟩
  | unpaid _ _ _ _ _ hs hx =>
      obtain ⟨hnonce, htransaction⟩ := h.paid hs hx
      exact ⟨hnonce, htransaction⟩
  | paid _ _ _ _ _ hs hx =>
      obtain ⟨hnonce, htransaction⟩ := h.paid hs hx
      exact ⟨hnonce, htransaction⟩
  | topupReconciled _ _ hs hx =>
      obtain ⟨hnonce, htransaction⟩ := h.paid hs hx
      exact ⟨hnonce, htransaction⟩
  | _ => exact ⟨h.nonce, h.transaction⟩

/-! ## What a top-up holds -/

theorem booked_topup (hf : f.LawfulRows) (ht : f.protocolTopups.lookup id = some t)
    (asset : Asset) : f.booked (Topups.held id asset) = if t.state = .uncertain then
      (match asset with | .TIG => (t.amount : ℤ) | .NATIVE => t.feeLimit) else 0 := by
  have htopups : f.bookedTopups (Topups.held id asset) = if t.state = .uncertain then
      (match asset with | .TIG => (t.amount : ℤ) | .NATIVE => t.feeLimit) else 0 := by
    rw [bookedTopups, Table.total_eq_single ht]
    · cases asset <;> simp [ProtocolTopup.position, operatorFees]
    · intro id' t' hne _
      simp [ProtocolTopup.position, operatorFees, hne]
  rw [booked, htopups, bookedReservations_zero rfl, bookedTransfers_zero hf rfl,
    bookedEarnings_zero rfl, bookedWithdrawals_zero rfl, bookedAttempts_zero rfl,
    bookedOpenings_zero rfl]
  simp

/-! ## The two legs -/

/-- What has left custody for a top-up. -/
def leftFor (f : Funds) (id : Uuid) : ℤ :=
  (f.ledger.journals.lookup (.topupCash id)).elim 0 fun j =>
    moved j.amounts (.external .custody .TIG)

/-- What has been credited to the protocol fee account for a top-up. -/
def creditedFor (f : Funds) (id : Uuid) : ℤ :=
  (f.ledger.journals.lookup (.topupProtocol id)).elim 0 fun j => moved j.amounts operatorFees

/-- Both legs are on the ledger once they have taken place. -/
def LegsPosted (f : Funds) : Prop :=
  ∀ ⦃id t⦄, f.protocolTopups.lookup id = some t → t.amount ≠ 0 →
    (t.state.sent = true → .topupCash id ∈ f.ledger.journals) ∧
      (t.credit.isSome → .topupProtocol id ∈ f.ledger.journals)

theorem Extends.mem_journals (h : f.Extends f') {k : EventKey} (hk : k ∈ f.ledger.journals) :
    k ∈ f'.ledger.journals := by
  obtain ⟨j, hj⟩ := Option.isSome_iff_exists.mp (AList.lookup_isSome.mpr hk)
  exact AList.lookup_isSome.mp (by rw [h.journal.lookup hj]; rfl)

theorem LegsPosted.step (hl : f.LawfulRows) (hf : f.LegsPosted) (h : Step f c f') :
    f'.LegsPosted := by
  intro id t ht hamount
  have hext := h.extends hl
  have hold : f.protocolTopups.lookup id = some t →
      (t.state.sent = true → .topupCash id ∈ f'.ledger.journals) ∧
        (t.credit.isSome → .topupProtocol id ∈ f'.ledger.journals) := fun ht₀ =>
    ⟨fun hs => hext.mem_journals ((hf ht₀ hamount).1 hs),
      fun hc => hext.mem_journals ((hf ht₀ hamount).2 hc)⟩
  cases h with
  | topupBegun _ hs hnone =>
      rcases Table.lookup_insert_cases ht with ⟨rfl, rfl⟩ | ⟨-, ht⟩
      · exact ⟨fun hsent => by simp [hs, TopupState.sent] at hsent,
          fun hc => by simp [hnone] at hc⟩
      · exact hold ht
  | topupReconciled ht₀ hs _ _ _ hr =>
      rcases Table.lookup_insert_cases ht with ⟨rfl, rfl⟩ | ⟨-, ht⟩
      · refine ⟨fun hsent => hr.mem_journals (a := .external .custody .TIG) ?_, fun hc => ?_⟩
        · simpa [topupCashMovements, hsent] using hamount
        · have hnone := (not_congr (hl.topup ht₀).credit).mpr (by simp [hs])
          exact absurd hc hnone
      · exact hold ht
  | topupCredited ht₀ hs _ _ _ _ _ _ _ _ _ hr =>
      rcases Table.lookup_insert_cases ht with ⟨rfl, rfl⟩ | ⟨-, ht⟩
      · refine ⟨fun _ => hext.mem_journals ((hf ht₀ hamount).1 (by rw [hs]; rfl)),
          fun _ => hr.mem_journals (a := operatorFees) ?_⟩
        simpa [openingPosition, operatorFees] using hamount
      · exact hold ht
  | _ => exact hold ht

theorem leftFor_eq (hf : f.Lawful) (hposted : f.LegsPosted)
    (ht : f.protocolTopups.lookup id = some t) :
    f.leftFor id = if t.state.sent then (t.amount : ℤ) else 0 := by
  rw [leftFor]
  cases hj : f.ledger.journals.lookup (.topupCash id) with
  | some j =>
      obtain ⟨t', s, p, ht', -, -, -, hmoves⟩ := hf.explained hj
      obtain rfl := Option.some.inj (ht.symm.trans ht')
      rw [Option.elim, hmoves]
      by_cases hsent : t.state.sent = true <;> simp [topupCashMovements, hsent]
  | none =>
      split
      next hsent =>
        by_contra hne
        have hmem := (hposted ht (fun hzero => hne (by simp [hzero]))).1 hsent
        rw [← AList.lookup_isSome, hj] at hmem
        cases hmem
      next => rfl

theorem creditedFor_eq (hf : f.Lawful) (hposted : f.LegsPosted)
    (ht : f.protocolTopups.lookup id = some t) :
    f.creditedFor id = if t.credit.isSome then (t.amount : ℤ) else 0 := by
  rw [creditedFor]
  cases hj : f.ledger.journals.lookup (.topupProtocol id) with
  | some j =>
      obtain ⟨t', ht', hc, hmoves⟩ := hf.explained hj
      obtain rfl := Option.some.inj (ht.symm.trans ht')
      rw [Option.elim, hmoves, if_pos hc]
      simp [openingPosition, operatorFees]
  | none =>
      split
      next hc =>
        by_contra hne
        have hmem := (hposted ht (fun hzero => hne (by simp [hzero]))).2 hc
        rw [← AList.lookup_isSome, hj] at hmem
        cases hmem
      next => rfl

/-- Without a top-up there is no leg. -/
theorem legs_none (hf : f.Lawful) (hnone : f.protocolTopups.lookup id = none) :
    f.leftFor id = 0 ∧ f.creditedFor id = 0 := by
  constructor
  · rw [leftFor]
    cases hj : f.ledger.journals.lookup (.topupCash id) with
    | none => rfl
    | some j =>
        obtain ⟨t, -, -, ht, -⟩ := hf.explained hj
        rw [hnone] at ht
        cases ht
  · rw [creditedFor]
    cases hj : f.ledger.journals.lookup (.topupProtocol id) with
    | none => rfl
    | some j =>
        obtain ⟨t, ht, -⟩ := hf.explained hj
        rw [hnone] at ht
        cases ht

/-- Only a confirmation by TIG credits a top-up. -/
theorem Path.credit {L : Change → Prop} (h : Path L f f') (hL : ¬ L (.topupCredited id))
    {t' : ProtocolTopup} (ht' : f'.protocolTopups.lookup id = some t') (hcredit : t'.credit.isSome) :
    ∃ t, f.protocolTopups.lookup id = some t ∧ t.credit.isSome := by
  have hall : ∀ t', f'.protocolTopups.lookup id = some t' → t'.credit.isSome →
      ∃ t, f.protocolTopups.lookup id = some t ∧ t.credit.isSome := by
    refine Leads.invariant (I := fun g => ∀ t', g.protocolTopups.lookup id = some t' →
      t'.credit.isSome → ∃ t, f.protocolTopups.lookup id = some t ∧ t.credit.isSome) h
      (fun t' ht' hc => ⟨t', ht', hc⟩) ?_
    intro g c g' hc hI hstep t' ht' hcredit
    cases hstep with
    | topupBegun _ _ hnone =>
        rcases Table.lookup_insert_cases ht' with ⟨rfl, rfl⟩ | ⟨-, hold⟩
        · simp [hnone] at hcredit
        · exact hI _ hold hcredit
    | topupReconciled ht =>
        rcases Table.lookup_insert_cases ht' with ⟨rfl, rfl⟩ | ⟨-, hold⟩
        · exact hI _ ht hcredit
        · exact hI _ hold hcredit
    | topupCredited =>
        rcases Table.lookup_insert_cases ht' with ⟨rfl, rfl⟩ | ⟨-, hold⟩
        · exact absurd hc hL
        · exact hI _ hold hcredit
    | _ => exact hI _ ht' hcredit
  exact hall t' ht' hcredit

/-- Only a transaction that reconciles a top-up makes its cash leg leave. -/
theorem Path.sent {L : Change → Prop} (h : Path L f f')
    (hL : ∀ state, ¬ L (.topupReconciled id state))
    {t' : ProtocolTopup} (ht' : f'.protocolTopups.lookup id = some t')
    (hsent : t'.state.sent = true) :
    ∃ t, f.protocolTopups.lookup id = some t ∧ t.state.sent = true := by
  have hall : ∀ t', f'.protocolTopups.lookup id = some t' → t'.state.sent = true →
      ∃ t, f.protocolTopups.lookup id = some t ∧ t.state.sent = true := by
    refine Leads.invariant (I := fun g => ∀ t', g.protocolTopups.lookup id = some t' →
      t'.state.sent = true → ∃ t, f.protocolTopups.lookup id = some t ∧ t.state.sent = true) h
      (fun t' ht' hc => ⟨t', ht', hc⟩) ?_
    intro g c g' hc hI hstep t' ht' hsent
    cases hstep with
    | topupBegun _ hs =>
        rcases Table.lookup_insert_cases ht' with ⟨rfl, rfl⟩ | ⟨-, hold⟩
        · simp [hs, TopupState.sent] at hsent
        · exact hI _ hold hsent
    | topupReconciled =>
        rcases Table.lookup_insert_cases ht' with ⟨rfl, rfl⟩ | ⟨-, hold⟩
        · exact absurd hc (hL _)
        · exact hI _ hold hsent
    | topupCredited ht hs =>
        rcases Table.lookup_insert_cases ht' with ⟨rfl, rfl⟩ | ⟨-, hold⟩
        · exact hI _ ht (by rw [hs]; rfl)
        · exact hI _ hold hsent
    | _ => exact hI _ ht' hsent
  exact hall t' ht' hsent

end Funds

namespace Sys

variable {s s' : Sys} {a : Action} {id : Uuid}

theorem does_topupCredited {db : Db} (h : a.does db (.topupCredited id)) :
    a = .funds (.creditTopup id) := by
  cases a with
  | funds a => cases a <;> simp_all [Action.does, FundsAction.does, Change.Quiet]
  | work a => cases a <;> simp_all [Action.does, WorkAction.does, Change.Quiet]
  | _ => simp_all [Action.does, Change.Quiet]

theorem Reachable.oneSendEach {allowed : Sys → Action → Prop} (h : Reachable allowed s) :
    s.db.funds.OneSendEach := by
  refine Reachable.invariant (I := fun s => s.db.funds.OneSendEach) h (fun s hs => ?_)
    fun s a s' _ hs hI hstep => ?_
  · rw [hs.funds]
    exact ⟨.empty, .empty⟩
  · exact Leads.invariant (hstep.path hs.lawful) hI fun _ _ _ _ hg ht => hg.step ht

theorem Reachable.legsPosted {allowed : Sys → Action → Prop} (h : Reachable allowed s) :
    s.db.funds.LegsPosted := by
  refine Reachable.invariant (I := fun s => s.db.funds.LegsPosted) h (fun s hs => ?_)
    fun s a s' _ hs hI hstep => ?_
  · rw [hs.funds]
    intro id t ht
    cases ht
  · have hboth : s'.db.funds.Lawful ∧ s'.db.funds.LegsPosted := by
      refine Leads.invariant (I := fun g => Funds.Lawful g ∧ g.LegsPosted) (hstep.path hs.lawful)
        ⟨hs.lawful.funds, hI⟩ ?_
      rintro g c g' - ⟨hg, hp⟩ hstep
      exact ⟨hg.step hstep, hp.step hg.rows hstep⟩
    exact hboth.2

/-- The protocol fee account is credited for a top-up in one transaction, and before it
the same amount has left custody. -/
theorem Reachable.credited_step {allowed : Sys → Action → Prop} (h : Reachable allowed s)
    (ha : allowed s a) (hstep : Step s a s')
    (hne : s'.db.funds.creditedFor id ≠ s.db.funds.creditedFor id) :
    a = .funds (.creditTopup id) ∧ s.db.funds.creditedFor id = 0 ∧
      s'.db.funds.creditedFor id = s.db.funds.leftFor id := by
  have hpath := hstep.path h.lawful
  have hext := hpath.extends h.lawful.funds
  have h' := h.step ha hstep
  have hf := h.lawful.funds
  have hf' := h'.lawful.funds
  cases ht' : s'.db.funds.protocolTopups.lookup id with
  | none =>
      have hnone : s.db.funds.protocolTopups.lookup id = none := by
        by_contra hsome
        obtain ⟨t, ht⟩ := Option.ne_none_iff_exists'.mp hsome
        obtain ⟨t', hx, -⟩ := hext.topup ht
        rw [ht'] at hx
        cases hx
      rw [(Funds.legs_none hf hnone).2, (Funds.legs_none hf' ht').2] at hne
      exact absurd rfl hne
  | some t' =>
      have hnow := Funds.creditedFor_eq hf' h'.legsPosted ht'
      -- What was credited before has stayed, so nothing was.
      have hfresh : ¬ ∃ t, s.db.funds.protocolTopups.lookup id = some t ∧ t.credit.isSome := by
        rintro ⟨t, ht, hc⟩
        obtain ⟨t'', ht'', hx⟩ := hext.topup ht
        obtain rfl := Option.some.inj (ht'.symm.trans ht'')
        refine hne ?_
        rw [hnow, Funds.creditedFor_eq hf h.legsPosted ht, if_pos hc, if_pos (hx.credit.isSome hc),
          hx.amount]
      have hzero : s.db.funds.creditedFor id = 0 := by
        cases ht : s.db.funds.protocolTopups.lookup id with
        | none => exact (Funds.legs_none hf ht).2
        | some t =>
            rw [Funds.creditedFor_eq hf h.legsPosted ht, if_neg fun hc => hfresh ⟨t, ht, hc⟩]
      have hcredit : t'.credit.isSome := by
        by_contra hnot
        exact hne (by rw [hnow, if_neg hnot, hzero])
      have hdoes : a = .funds (.creditTopup id) := by
        by_contra hother
        exact hfresh (hpath.credit (fun hd => hother (does_topupCredited hd)) ht' hcredit)
      refine ⟨hdoes, hzero, ?_⟩
      have hsent' : t'.state.sent = true := by
        rw [(hf'.rows.topup ht').credit.mp hcredit]
        rfl
      obtain ⟨t, ht, hsent⟩ := hpath.sent (by
        rw [hdoes]
        simp [Action.does, FundsAction.does, Change.Quiet]) ht' hsent'
      obtain ⟨t'', ht'', hx⟩ := hext.topup ht
      obtain rfl := Option.some.inj (ht'.symm.trans ht'')
      rw [hnow, if_pos hcredit, Funds.leftFor_eq hf h.legsPosted ht, if_pos hsent, hx.amount]

end Sys

/-! ## The life of a top-up -/

/-- What holds of a top-up at any time. -/
structure TopupAccounts (f : Funds) (id : Uuid) (t : ProtocolTopup) : Prop where
  cash : f.ledger.balance (Topups.held id .TIG) = if t.state = .uncertain then (t.amount : ℤ) else 0
  gas : f.ledger.balance (Topups.held id .NATIVE)
    = if t.state = .uncertain then (t.feeLimit : ℤ) else 0
  left : f.leftFor id = if t.state.sent then (t.amount : ℤ) else 0
  credited : f.creditedFor id = if t.credit.isSome then (t.amount : ℤ) else 0
  order : t.credit.isSome → t.state = .credited

/-- In every state that transactions other than corrections reach: no two sends, of
whichever kind, share a nonce of the wallet, a transaction or a transfer event; what a
top-up holds waits exactly while it is uncertain; a transaction that credits the protocol
fee account for a top-up is the first to do so, and credits what had left custody before;
and no two top-ups are credited for one top-up or one event at TIG. -/
theorem topup_accounts {s : Sys} (h : Sys.Reachable Sys.Uncorrected s) :
    Table.Distinct CustodySend.SameNonce s.db.funds.custodySends ∧
    Table.Distinct CustodySend.SameTransaction s.db.funds.custodySends ∧
    (∀ id id' sent sent' p p' e, s.db.funds.custodySends.lookup id = some sent →
      sent.payment = some p → s.db.funds.custodySends.lookup id' = some sent' →
      sent'.payment = some p' → p.transferEvent = some e → p'.transferEvent = some e → id = id') ∧
    (∀ id t, s.db.funds.protocolTopups.lookup id = some t → TopupAccounts s.db.funds id t) ∧
    (∀ id a s', Sys.Uncorrected s a → Sys.Step s a s' →
      s'.db.funds.creditedFor id ≠ s.db.funds.creditedFor id →
      s.db.funds.creditedFor id = 0 ∧ s'.db.funds.creditedFor id = s.db.funds.leftFor id) ∧
    ∀ id id' t t' credit credit', s.db.funds.protocolTopups.lookup id = some t →
      s.db.funds.protocolTopups.lookup id' = some t' → t.credit = some credit →
      t'.credit = some credit' →
      (credit.topupId = credit'.topupId ∨ credit.transferEvent = credit'.transferEvent) →
      id = id' := by
  have hf := h.lawful.funds
  refine ⟨h.oneSendEach.nonce, h.oneSendEach.transaction, ?_, fun id t ht => ?_, ?_, ?_⟩
  · intro id id' sent sent' p p' e hs hp hs' hp' he he'
    exact PaymentsFit.event hf.paid hs hp hs' hp' he he'
  · have hbooked := fun asset => Funds.booked_topup hf.rows ht asset
    exact
      { cash := (h.reconciled _ ⟨by simp, by simp⟩).trans (hbooked .TIG)
        gas := (h.reconciled _ ⟨by simp, by simp⟩).trans (hbooked .NATIVE)
        left := Funds.leftFor_eq hf h.legsPosted ht
        credited := Funds.creditedFor_eq hf h.legsPosted ht
        order := (hf.rows.topup ht).credit.mp }
  · intro id a s' ha hstep hne
    exact (h.credited_step ha hstep hne).2
  · intro id id' t t' credit credit' ht ht' hc hc' hsame
    exact hf.credits.once ht ht' hc hc' hsame

namespace FundedDay

open FirstDay (network around)
open PaidDay (evidence gasFunding)

/-- Money of the operator's. -/
def deposit : ConfirmedTransfer :=
  { FirstDay.deposit with
    txHash := "0x20", sender := "0x00000000000000000000000000000000000000cc"
    amount := 100 * tig }

def vault : Address := "0x00000000000000000000000000000000000000dd"

def snapshot (available : ℤ) (topups : Table String ConfirmedTopup) : FundingSnapshot where
  playerId := network.custody
  height := 20
  recipient := vault
  minimum := 1
  available := available
  topups := topups

/-- What TIG says of the account, with the top-ups that it has confirmed. -/
def capture (available : ℤ) (topups : Table String ConfirmedTopup) : FundingCapture where
  playerId := network.custody
  apiOrigin := none
  erc20 := []
  rawTopups := topups.entries.map fun e => (e.1, true)
  snapshot := some (snapshot available topups)
  checkedAt := 0
  createdAt := 0

def preflight : CustodyPreflight :=
  { PaidDay.preflight with
    nonce := 1, tokenBalance := 1097 * tig, nativeBalance := 8, blockNumber := 10 }

def payment : ConfirmedTransaction :=
  { PaidDay.payment with txHash := "0x21", nonce := 1, blockNumber := 11, blockHash := "0x0b" }

def transfer : ConfirmedTransfer :=
  { PaidDay.transfer with
    txHash := "0x21", blockNumber := 11, blockHash := "0x0b", recipient := vault
    amount := 50 * tig }

def confirmed : Table String ConfirmedTopup :=
  AList.insert "top-up at TIG" ⟨"0x21", 0, 50 * tig, 20⟩ ∅

/-- A top-up follows the withdrawal, and may have been sent. -/
def topping (db : Db) (cap : SpendingCap) : Result Db := do
  let (db, _) ← Deposits.receive db deposit
  let db ← Deposits.attributeReviewed db deposit "operator" evidence .operator
  let db ← Funding.record db "first" (capture 0 ∅)
  let (db, _) ← Topups.begin db "top-up" preflight "first" (50 * tig) 4 "op-isthmus" "operator"
    around "topup" (some cap)
  return db

/-- The cash has left, and TIG confirms it. -/
def crediting (db : Db) : Result (Db × Topups.Instructions × Db) := do
  let db ← Topups.reconcileEvidence db "topup" payment
  let (db, _) ← Topups.reconcile db "topup" payment (some transfer)
  let value ← Topups.instructions db "topup"
  let db ← Funding.record db "second" (capture (50 * tig) confirmed)
  let (db', _) ← Topups.credit db "topup" value "second"
  return (db, value, db')

theorem topping_reachable {db db' : Db} {held : Held} {cap : SpendingCap} (hcap : cap ∈ held.caps)
    (hs : Sys.Reachable Sys.Uncorrected ⟨db, held⟩) (h : topping db cap = .ok db') :
    Sys.Reachable Sys.Uncorrected ⟨db', held⟩ := by
  simp only [topping, bind_eq_ok, pure_eq_ok] at h
  obtain ⟨⟨db₁, _⟩, h₁, db₂, h₂, db₃, h₃, ⟨_, _⟩, h₄, rfl⟩ := h
  have hfunded := (hs.step (by simp [Sys.Uncorrected]) (.funds (.receive h₁))).step
    (by simp [Sys.Uncorrected]) (.funds (.attributeReviewed h₂))
  exact (hfunded.step (by simp [Sys.Uncorrected]) (.funds (.recordFunding h₃))).step
    (by simp [Sys.Uncorrected]) (.funds (.beginTopup hcap h₄))

theorem crediting_reachable {db db₁ db₂ : Db} {held : Held} {value : Topups.Instructions}
    (hs : Sys.Reachable Sys.Uncorrected ⟨db, held⟩) (h : crediting db = .ok (db₁, value, db₂)) :
    Sys.Reachable Sys.Uncorrected ⟨db₁, { held with
        topups := ("topup", payment) :: held.topups
        instructions := ("topup", value) :: held.instructions }⟩ ∧
      Sys.Step ⟨db₁, { held with
          topups := ("topup", payment) :: held.topups
          instructions := ("topup", value) :: held.instructions }⟩ (.funds (.creditTopup "topup"))
        ⟨db₂, { held with
          topups := ("topup", payment) :: held.topups
          instructions := ("topup", value) :: held.instructions }⟩ := by
  simp only [crediting, bind_eq_ok, pure_eq_ok, Prod.mk.injEq] at h
  obtain ⟨db₃, h₃, ⟨db₄, _⟩, h₄, _, h₅, db₆, h₆, ⟨_, _⟩, h₇, rfl, rfl, rfl⟩ := h
  have hpaid := (hs.step (by simp [Sys.Uncorrected]) (.hold (.topupEvidence h₃))).step
    (by simp [Sys.Uncorrected]) (.funds (.reconcileTopup (List.mem_cons_self ..) h₄))
  exact ⟨(hpaid.step (by simp [Sys.Uncorrected]) (.hold (.instructions h₅))).step
    (by simp [Sys.Uncorrected]) (.funds (.recordFunding h₆)),
    .funds (.creditTopup (List.mem_cons_self ..) h₇)⟩
/-- The top-up while it may have been sent, before TIG's credit, and after it. -/
def day : Result (Db × Db × Db) := do
  let (db, cap) ← PaidDay.sending
  let db ← PaidDay.paying db
  let waiting ← topping db cap
  let (left, _, credited) ← crediting waiting
  return (waiting, left, credited)

/-- The top-up is there, in such a state, and has the amount of the day. -/
def topupIs (db : Db) (state : TopupState) : Bool :=
  (db.funds.protocolTopups.lookup "topup").any fun t =>
    t.state = state ∧ t.amount = 50 * tig ∧ t.feeLimit = 4 ∧
      (t.credit.isSome ↔ state = .credited)

theorem topupIs_spec {db : Db} {state : TopupState} (h : topupIs db state = true) :
    ∃ t, db.funds.protocolTopups.lookup "topup" = some t ∧ t.state = state ∧
      t.amount = 50 * tig ∧ t.feeLimit = 4 ∧ (t.credit.isSome ↔ state = .credited) := by
  obtain ⟨t, ht, hall⟩ := (Option.any_eq_true _ _).mp h
  exact ⟨t, ht, of_decide_eq_true hall⟩

/-- Both sends of the day were paid. -/
def bothPaid (db : Db) : Bool :=
  ["attempt", "topup"].all fun id =>
    (db.funds.custodySends.lookup id).any (·.payment.any (·.transferEvent.isSome))

/-- The account of the day is written in lower case. -/
theorem address_custody {available : ℤ} {topups : Table String ConfirmedTopup} :
    address (capture available topups).playerId = .ok network.custody := by
  have hlower : (address network.custody).toOption = some network.custody := by decide +kernel
  exact eq_ok_of_toOption hlower

theorem day_spec : ∃ waiting left credited : Sys,
    Sys.Reachable Sys.Uncorrected waiting ∧ Sys.Reachable Sys.Uncorrected left ∧
    Sys.Step left (.funds (.creditTopup "topup")) credited ∧
    topupIs waiting.db .uncertain = true ∧ topupIs left.db .awaitingProtocol = true ∧
    topupIs credited.db .credited = true ∧ bothPaid credited.db = true := by
  have hfacts : day.toOption.any (fun (waiting, left, credited) =>
      topupIs waiting .uncertain ∧ topupIs left .awaitingProtocol ∧
      topupIs credited .credited ∧ bothPaid credited) = true := by
    simp only [day, topping, crediting, Funding.record, address_custody]
    decide +kernel
  obtain ⟨⟨waiting, left, credited⟩, hday, hfacts⟩ := (Option.any_eq_true _ _).mp hfacts
  have hrun := eq_ok_of_toOption hday
  simp only [day, bind_eq_ok, pure_eq_ok, Prod.mk.injEq] at hrun
  obtain ⟨⟨db, cap⟩, hsending, db₁, hpaying, db₂, htopping, ⟨_, value, _⟩, hcrediting, rfl, rfl,
    rfl⟩ := hrun
  have hwaiting := topping_reachable (List.mem_cons_self ..)
    (PaidDay.paying_reachable (PaidDay.sending_reachable hsending) hpaying) htopping
  obtain ⟨hleft, hcredit⟩ := crediting_reachable hwaiting hcrediting
  obtain ⟨hheld, hgone, hdone, hpaid⟩ := of_decide_eq_true hfacts
  exact ⟨_, _, _, hwaiting, hleft, hcredit, hheld, hgone, hdone, hpaid⟩

end FundedDay

/-- A top-up of 50 TIG: its accounts while it may have been sent and once it is credited, its
credit, and its nonce beside that of a withdrawal. -/
theorem topup_accounts_credited : ∃ waiting left credited : Sys,
    (∃ t, waiting.db.funds.protocolTopups.lookup "topup" = some t ∧ t.state = .uncertain ∧
      TopupAccounts waiting.db.funds "topup" t ∧
      waiting.db.funds.ledger.balance (Topups.held "topup" .TIG) = 50 * tig ∧
      waiting.db.funds.ledger.balance (Topups.held "topup" .NATIVE) = 4) ∧
    (left.db.funds.creditedFor "topup" = 0 ∧ left.db.funds.leftFor "topup" = 50 * tig ∧
      Sys.Step left (.funds (.creditTopup "topup")) credited ∧
      credited.db.funds.creditedFor "topup" = left.db.funds.leftFor "topup") ∧
    ∃ sent sent' p p' e e', credited.db.funds.custodySends.lookup "attempt" = some sent ∧
      credited.db.funds.custodySends.lookup "topup" = some sent' ∧ sent.payment = some p ∧
      sent'.payment = some p' ∧ p.transferEvent = some e ∧ p'.transferEvent = some e' ∧
      ¬ sent.SameNonce sent' ∧ ¬ sent.SameTransaction sent' ∧ e ≠ e' := by
  obtain ⟨waiting, left, credited, hwaiting, hleft, hstep, hheld, hgone, hdone, hpaid⟩ :=
    FundedDay.day_spec
  obtain ⟨t, ht, hstate, hamount, hlimit, -⟩ := FundedDay.topupIs_spec hheld
  obtain ⟨x, hx, hstate', hamount', -, huncredited⟩ := FundedDay.topupIs_spec hgone
  obtain ⟨y, hy, -, hamount'', -, hcredited⟩ := FundedDay.topupIs_spec hdone
  have hend := hleft.step (by simp [Sys.Uncorrected]) hstep
  have hfirst := (topup_accounts hwaiting).2.2.2.1 "topup" t ht
  obtain ⟨-, -, -, hsecond, hcredit, -⟩ := topup_accounts hleft
  obtain ⟨hnonce, htransaction, hevents, hlast, -, -⟩ := topup_accounts hend
  have hbefore := (hsecond "topup" x hx).credited
  rw [if_neg (by simp [huncredited])] at hbefore
  have hafter := (hlast "topup" y hy).credited
  rw [if_pos (hcredited.mpr rfl), hamount''] at hafter
  have hchanged : credited.db.funds.creditedFor "topup" ≠ left.db.funds.creditedFor "topup" := by
    rw [hbefore, hafter]
    decide
  refine ⟨waiting, left, credited, ⟨t, ht, hstate, hfirst, ?_, ?_⟩, ⟨hbefore, ?_, hstep,
    (hcredit "topup" _ _ (by simp [Sys.Uncorrected]) hstep hchanged).2⟩, ?_⟩
  · rw [hfirst.cash, if_pos hstate, hamount]
    rfl
  · rw [hfirst.gas, if_pos hstate, hlimit]
    rfl
  · rw [(hsecond "topup" x hx).left, if_pos (by rw [hstate']; rfl), hamount']
    rfl
  · have hpayments := List.all_eq_true.mp hpaid
    obtain ⟨sent, hs, hp⟩ := (Option.any_eq_true _ _).mp (hpayments "attempt" (by simp))
    obtain ⟨sent', hs', hp'⟩ := (Option.any_eq_true _ _).mp (hpayments "topup" (by simp))
    obtain ⟨p, hp, he⟩ := (Option.any_eq_true _ _).mp hp
    obtain ⟨p', hp', he'⟩ := (Option.any_eq_true _ _).mp hp'
    obtain ⟨e, he⟩ := Option.isSome_iff_exists.mp he
    obtain ⟨e', he'⟩ := Option.isSome_iff_exists.mp he'
    have hne : ("attempt" : Uuid) ≠ "topup" := by decide
    refine ⟨sent, sent', p, p', e, e', hs, hs', hp, hp', he, he', fun h => hne ?_,
      fun h => hne ?_, fun h => hne ?_⟩
    · exact hnonce hs hs' h
    · exact htransaction hs hs' h
    · exact hevents _ _ _ _ p p' e hs hp hs' hp' he (h ▸ he')

end TigPool
