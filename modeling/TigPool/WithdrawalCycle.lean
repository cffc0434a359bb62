/-
# `TigPool.WithdrawalCycle` — the life of a withdrawal

A withdrawal may be sent several times, and is paid once.  The money waits on the
account of the withdrawal as long as it may still leave; the gas of an attempt waits
until the attempt is resolved; and only a withdrawal that cannot have been sent is
ever released.
-/
import TigPool.Positions

namespace TigPool

open Basis

namespace Funds

variable {f f' : Funds} {c : Change} {id aid : Uuid} {w : Withdrawal} {a : WithdrawalAttempt}

/-! ## The two accounts -/

theorem booked_pending (hf : f.LawfulRows) (hw : f.withdrawals.lookup id = some w) :
    f.booked (Withdrawals.pending id) = if w.state.isPending then (w.amount : ℤ) else 0 := by
  have hsource : ∀ w : Withdrawal, Withdrawals.source w ≠ Withdrawals.pending id := by
    intro w h
    unfold Withdrawals.source at h
    cases hm : w.memberId <;> simp [hm] at h
  have hwithdrawals : f.bookedWithdrawals (Withdrawals.pending id)
      = if w.state.isPending then (w.amount : ℤ) else 0 := by
    rw [bookedWithdrawals, Table.total_eq_single hw]
    · simp [Withdrawal.position, hsource]
    · intro id' w' hne _
      simp [Withdrawal.position, hsource, hne]
  rw [booked, hwithdrawals, bookedReservations_zero rfl, bookedTransfers_zero hf rfl,
    bookedEarnings_zero rfl, bookedAttempts_zero rfl, bookedTopups_zero rfl,
    bookedOpenings_zero rfl]
  simp

theorem booked_gasHold (hf : f.LawfulRows) (ha : f.withdrawalAttempts.lookup aid = some a) :
    f.booked (Withdrawals.gasHold aid) = if a.outcome = none then (a.feeLimit : ℤ) else 0 := by
  have hattempts : f.bookedAttempts (Withdrawals.gasHold aid)
      = if a.outcome = none then (a.feeLimit : ℤ) else 0 := by
    rw [bookedAttempts, Table.total_eq_single ha]
    · simp [WithdrawalAttempt.position]
    · intro aid' a' hne _
      simp [WithdrawalAttempt.position, hne]
  rw [booked, hattempts, bookedReservations_zero rfl, bookedTransfers_zero hf rfl,
    bookedEarnings_zero rfl, bookedWithdrawals_zero rfl, bookedTopups_zero rfl,
    bookedOpenings_zero rfl]
  simp

/-! ## A payment is posted -/

/-- What a paid attempt moved is on the ledger. -/
def PaidPosted (f : Funds) : Prop :=
  ∀ ⦃aid a o w⦄, f.withdrawalAttempts.lookup aid = some a → a.outcome = some o →
    o.outcome = .paid → f.withdrawals.lookup a.withdrawalId = some w → w.amount ≠ 0 →
    .attemptReconcile aid ∈ f.ledger.journals

theorem PaidPosted.step (hl : f.LawfulRows) (hp : f.Paid) (hf : f.PaidPosted) (h : Step f c f') :
    f'.PaidPosted := by
  intro aid a o w ha ho hpaid hw hamount
  have hext := h.extends hl
  have hold : f.withdrawalAttempts.lookup aid = some a →
      .attemptReconcile aid ∈ f'.ledger.journals := by
    intro ha₀
    obtain ⟨w₀, -, hw₀, -⟩ := PaymentsFit.attempt hp ha₀
    obtain ⟨w', hw', hx⟩ := hext.withdrawal hw₀
    obtain rfl := Option.some.inj (hw.symm.trans hw')
    have hmem := hf ha₀ ho hpaid hw₀ (by rwa [← hx.amount])
    obtain ⟨j, hj⟩ := Option.isSome_iff_exists.mp (AList.lookup_isSome.mpr hmem)
    exact AList.lookup_isSome.mp (by rw [hext.journal.lookup hj]; rfl)
  cases h with
  | begun _ _ _ _ hnone =>
      rcases Table.lookup_insert_cases ha with ⟨rfl, rfl⟩ | ⟨-, ha⟩
      · rw [hnone] at ho
        cases ho
      · exact hold ha
  | unpaid _ _ _ _ _ _ _ _ hne =>
      rcases Table.lookup_insert_cases ha with ⟨rfl, rfl⟩ | ⟨-, ha⟩
      · obtain rfl := Option.some.inj ho
        exact absurd hpaid hne
      · exact hold ha
  | paid hx _ hid hrow _ _ _ _ _ _ _ _ _ _ _ _ _ hr =>
      rcases Table.lookup_insert_cases ha with ⟨rfl, rfl⟩ | ⟨-, ha⟩
      · rcases Table.lookup_insert_cases hw with ⟨-, rfl⟩ | ⟨hne, -⟩
        · refine hr.mem_journals (a := .external .custody .TIG) ?_
          simpa [reconcileMovements] using hamount
        · exact absurd hid hne
      · exact hold ha
  | _ => exact hold ha

/-! ## Attempts of one withdrawal -/

/-- A withdrawal is uncertain while one of its attempts is unresolved. -/
theorem Paid.uncertain_iff (hp : f.Paid) (hw : f.withdrawals.lookup id = some w) :
    w.state = .uncertain ↔ ∃ aid a, f.withdrawalAttempts.lookup aid = some a ∧
      a.withdrawalId = id ∧ a.outcome = none := by
  constructor
  · intro hs
    obtain ⟨aid, a, ha, hid, hlive⟩ := PaymentsFit.live hp hw (Or.inl hs)
    obtain ⟨w', s, hw', -, -, hfits⟩ := PaymentsFit.attempt hp ha
    rw [hid, hw] at hw'
    obtain rfl := Option.some.inj hw'
    refine ⟨aid, a, ha, hid, ?_⟩
    cases hfits with
    | unresolved hnone => exact hnone
    | unpaid ho hne => exact absurd (hlive _ ho) hne
    | paid _ _ _ hpaid =>
        rw [hs] at hpaid
        cases hpaid
  · rintro ⟨aid, a, ha, rfl, hnone⟩
    obtain ⟨w', s, hw', -, -, hfits⟩ := PaymentsFit.attempt hp ha
    obtain rfl := Option.some.inj (hw.symm.trans hw')
    cases hfits with
    | unresolved _ hs => exact hs
    | unpaid ho =>
        rw [hnone] at ho
        cases ho
    | paid ho =>
        rw [hnone] at ho
        cases ho

/-- A withdrawal is paid once one of its attempts has paid it. -/
theorem Paid.paid_iff (hp : f.Paid) (hw : f.withdrawals.lookup id = some w) :
    w.state = .paid ↔ ∃ aid a o, f.withdrawalAttempts.lookup aid = some a ∧
      a.withdrawalId = id ∧ a.outcome = some o ∧ o.outcome = .paid := by
  constructor
  · intro hs
    obtain ⟨aid, a, ha, hid, hlive⟩ := PaymentsFit.live hp hw (Or.inr hs)
    obtain ⟨w', s, hw', -, -, hfits⟩ := PaymentsFit.attempt hp ha
    rw [hid, hw] at hw'
    obtain rfl := Option.some.inj hw'
    cases hfits with
    | unresolved _ huncertain =>
        rw [hs] at huncertain
        cases huncertain
    | unpaid ho hne => exact absurd (hlive _ ho) hne
    | paid ho hpaid => exact ⟨aid, a, _, ha, hid, ho, hpaid⟩
  · rintro ⟨aid, a, o, ha, rfl, ho, hpaid⟩
    obtain ⟨w', s, hw', -, -, hfits⟩ := PaymentsFit.attempt hp ha
    obtain rfl := Option.some.inj (hw.symm.trans hw')
    cases hfits with
    | unresolved hnone =>
        rw [hnone] at ho
        cases ho
    | unpaid ho' hne =>
        obtain rfl := Option.some.inj (ho.symm.trans ho')
        exact absurd hpaid hne
    | paid _ _ _ hs => exact hs

/-- What the attempts of a withdrawal moved out of custody. -/
def sentFor (f : Funds) (id : Uuid) : ℤ :=
  f.withdrawalAttempts.total fun aid a =>
    if a.withdrawalId = id then
      (f.ledger.journals.lookup (.attemptReconcile aid)).elim 0 fun j =>
        moved j.amounts (.external .custody .TIG)
    else 0

theorem sentFor_eq (hf : f.Lawful) (hposted : f.PaidPosted)
    (hw : f.withdrawals.lookup id = some w) :
    f.sentFor id = if w.state = .paid then (w.amount : ℤ) else 0 := by
  have hterm : ∀ {aid a}, f.withdrawalAttempts.lookup aid = some a → a.withdrawalId = id →
      ((f.ledger.journals.lookup (.attemptReconcile aid)).elim 0 fun j =>
        moved j.amounts (.external .custody .TIG))
        = if a.outcome.any (·.outcome = .paid) then (w.amount : ℤ) else 0 := by
    intro aid a ha hid
    cases hj : f.ledger.journals.lookup (.attemptReconcile aid) with
    | some j =>
        obtain ⟨a', o, w', ha', ho, hw', hmoves⟩ := hf.explained hj
        obtain rfl := Option.some.inj (ha.symm.trans ha')
        rw [hid, hw] at hw'
        obtain rfl := Option.some.inj hw'
        rw [Option.elim, hmoves, ho]
        by_cases hpaid : o.outcome = .paid <;> simp [reconcileMovements, hpaid]
    | none =>
        cases ho : a.outcome with
        | none => simp
        | some o =>
            by_cases hpaid : o.outcome = .paid
            · have hzero : w.amount = 0 := by
                by_contra hne
                have hmem := hposted ha ho hpaid (hid ▸ hw) hne
                rw [← AList.lookup_isSome, hj] at hmem
                cases hmem
              simp [hzero]
            · simp [hpaid]
  by_cases hs : w.state = .paid
  · obtain ⟨aid, a, o, ha, hid, ho, hpaid⟩ := (Paid.paid_iff hf.paid hw).mp hs
    rw [if_pos hs, sentFor, Table.total_eq_single ha]
    · rw [if_pos hid, hterm ha hid]
      simp [ho, hpaid]
    · intro aid' a' hne ha'
      split
      next hid' =>
        rw [hterm ha' hid', if_neg]
        intro hany
        obtain ⟨o', ho', hpaid'⟩ := (Option.any_eq_true _ _).mp hany
        refine hne (PaymentsFit.alone hf.paid ha' ha (hid'.trans hid.symm) ?_ ?_)
        · intro o'' ho''
          obtain rfl := Option.some.inj (ho'.symm.trans ho'')
          simpa using hpaid'
        · intro o'' ho''
          obtain rfl := Option.some.inj (ho.symm.trans ho'')
          exact hpaid
      next => rfl
  · rw [if_neg hs]
    refine Table.total_eq_zero fun aid a ha => ?_
    split
    next hid =>
      rw [hterm ha hid, if_neg]
      intro hany
      obtain ⟨o, ho, hpaid⟩ := (Option.any_eq_true _ _).mp hany
      exact hs ((Paid.paid_iff hf.paid hw).mpr ⟨aid, a, o, ha, hid, ho, by simpa using hpaid⟩)
    next => rfl

/-! ## What a transfer event pays -/

/-- A withdrawal or a top-up. -/
inductive Payee where
  | withdrawal (id : Uuid)
  | topup (id : Uuid)
deriving DecidableEq

/-- The event pays the withdrawal, or is the cash leg of the top-up. -/
def Pays (f : Funds) (e : EventId) : Payee → Prop
  | .withdrawal id => ∃ w, f.withdrawals.lookup id = some w ∧ w.paidEvent = some e
  | .topup id => ∃ t s p, f.protocolTopups.lookup id = some t ∧
      f.custodySends.lookup id = some s ∧ s.payment = some p ∧ p.transferEvent = some e

/-- Behind a paid withdrawal stands one custody send with the event. -/
theorem Lawful.paid_send (hf : f.Lawful) (hw : f.withdrawals.lookup id = some w) {e : EventId}
    (he : w.paidEvent = some e) : ∃ aid a o s p, f.withdrawalAttempts.lookup aid = some a ∧
      a.withdrawalId = id ∧ a.outcome = some o ∧ o.outcome = .paid ∧
      f.custodySends.lookup aid = some s ∧ s.payment = some p ∧ p.transferEvent = some e ∧
      ∃ t, f.transfers.lookup e = some t ∧ t.amount = w.amount ∧ t.recipient = w.recipient := by
  have hs : w.state = .paid := (hf.rows.withdrawal hw).paidEvent.mp (by rw [he]; rfl)
  obtain ⟨aid, a, o, ha, hid, ho, hpaid⟩ := (Paid.paid_iff hf.paid hw).mp hs
  obtain ⟨w', s, p, e', t, tx, hby⟩ := hf.evidenced.paid ha ho hpaid
  have hw' := hby.withdrawal
  rw [hid, hw] at hw'
  obtain rfl := Option.some.inj hw'
  obtain rfl := Option.some.inj (he.symm.trans hby.paidEvent)
  exact ⟨aid, a, o, s, p, ha, hid, ho, hpaid, hby.send, hby.payment, hby.event, t, hby.transfer,
    hby.amount, hby.recipient⟩

theorem Lawful.pays_one (hf : f.Lawful) {e : EventId} {x y : Payee} (hx : f.Pays e x)
    (hy : f.Pays e y) : x = y := by
  cases x with
  | withdrawal id =>
      obtain ⟨w, hw, he⟩ := hx
      obtain ⟨aid, a, o, s, p, ha, hid, -, -, hs, hpay, hevent, -⟩ := hf.paid_send hw he
      cases y with
      | withdrawal id' =>
          obtain ⟨w', hw', he'⟩ := hy
          obtain ⟨aid', a', o', s', p', ha', hid', -, -, hs', hpay', hevent', -⟩ :=
            hf.paid_send hw' he'
          obtain rfl := PaymentsFit.event hf.paid hs hpay hs' hpay' hevent hevent'
          obtain rfl := Option.some.inj (ha.symm.trans ha')
          rw [← hid, ← hid']
      | topup id' =>
          obtain ⟨t, s', p', ht, hs', hpay', hevent'⟩ := hy
          obtain rfl := PaymentsFit.event hf.paid hs hpay hs' hpay' hevent hevent'
          exact (PaymentsFit.not_topup hf.paid ha ht).elim
  | topup id =>
      obtain ⟨t, s, p, ht, hs, hpay, hevent⟩ := hx
      cases y with
      | withdrawal id' =>
          obtain ⟨w', hw', he'⟩ := hy
          obtain ⟨aid', a', o', s', p', ha', -, -, -, hs', hpay', hevent', -⟩ :=
            hf.paid_send hw' he'
          obtain rfl := PaymentsFit.event hf.paid hs hpay hs' hpay' hevent hevent'
          exact (PaymentsFit.not_topup hf.paid ha' ht).elim
      | topup id' =>
          obtain ⟨t', s', p', ht', hs', hpay', hevent'⟩ := hy
          rw [PaymentsFit.event hf.paid hs hpay hs' hpay' hevent hevent']

end Funds

/-- What is released cannot have been sent. -/
theorem Withdrawals.release_unsent {db db' : Db} {id out : Uuid} {actor reason key : String}
    {member : Option Uuid} (h : release db id actor reason key member = .ok (db', out)) :
    ∃ w, db.funds.withdrawals.lookup id = some w ∧ w.state ≠ .uncertain ∧ w.state ≠ .paid := by
  simp only [release, locked, bind_eq_ok, require_eq_ok, exists_const, fetch_eq_ok] at h
  obtain ⟨-, w, hw, -, hstate, -⟩ := h
  refine ⟨w, hw, ?_⟩
  cases member <;> rcases hstate with hs | hs | hs <;> simp [hs]

/-! ## The life of a withdrawal -/

/-- What holds of a withdrawal at any time. -/
structure WithdrawalAccounts (f : Funds) (id : Uuid) (w : Withdrawal) : Prop where
  pending : f.ledger.balance (Withdrawals.pending id)
    = if w.state = .requested ∨ w.state = .approved ∨ w.state = .uncertain then (w.amount : ℤ) else 0
  unresolved : ∀ aid a aid' a', f.withdrawalAttempts.lookup aid = some a →
    f.withdrawalAttempts.lookup aid' = some a' → a.withdrawalId = id → a'.withdrawalId = id →
    a.outcome = none → a'.outcome = none → aid = aid'
  uncertain : w.state = .uncertain ↔ ∃ aid a, f.withdrawalAttempts.lookup aid = some a ∧
    a.withdrawalId = id ∧ a.outcome = none
  paidOnce : ∀ aid a o aid' a' o', f.withdrawalAttempts.lookup aid = some a →
    f.withdrawalAttempts.lookup aid' = some a' → a.withdrawalId = id → a'.withdrawalId = id →
    a.outcome = some o → a'.outcome = some o' → o.outcome = .paid → o'.outcome = .paid → aid = aid'
  sent : f.sentFor id = if w.state = .paid then (w.amount : ℤ) else 0
  recipient : ∀ e, w.paidEvent = some e →
    ∃ t, f.transfers.lookup e = some t ∧ t.amount = w.amount ∧ t.recipient = w.recipient

/-- In every state that transactions other than corrections reach: the accounts and the
attempts of each withdrawal, its recipient for ever, one payee for each event, the gas
of resolved attempts, one pending withdrawal each, no release of what may have been
sent, and a week between two payments to a member. -/
theorem withdrawal_accounts {s : Sys} (h : Sys.Reachable Sys.Uncorrected s) :
    (∀ id w, s.db.funds.withdrawals.lookup id = some w → WithdrawalAccounts s.db.funds id w ∧
      ∀ s', Leads Sys.Step Sys.Any s s' → ∃ w', s'.db.funds.withdrawals.lookup id = some w' ∧
        w'.amount = w.amount ∧ w'.recipient = w.recipient) ∧
    (∀ e x y, s.db.funds.Pays e x → s.db.funds.Pays e y → x = y) ∧
    (∀ id s', Sys.Step s (.funds (.release id)) s' →
      (∀ aid a, s.db.funds.withdrawalAttempts.lookup aid = some a → a.withdrawalId = id →
        a.outcome ≠ none) ∧
      ∃ w, s.db.funds.withdrawals.lookup id = some w ∧ w.state ≠ .uncertain ∧ w.state ≠ .paid) ∧
    (∀ aid a, s.db.funds.withdrawalAttempts.lookup aid = some a → a.outcome ≠ none →
      s.db.funds.ledger.balance (Withdrawals.gasHold aid) = 0) ∧
    Funds.OnePending s.db.funds.withdrawals ∧
    ∀ aid aid' m t t', s.db.funds.PaidAt aid m t → s.db.funds.PaidAt aid' m t' → aid ≠ aid' →
      Funds.Apart t t' := by
  have hf := h.lawful.funds
  have hposted : s.db.funds.PaidPosted := by
    refine Sys.Reachable.invariant (I := fun s => s.db.funds.PaidPosted) h (fun s hs => ?_)
      fun s a s' _ hs hI hstep => ?_
    · rw [hs.funds]
      intro aid a o w ha
      cases ha
    · have hboth : s'.db.funds.Lawful ∧ s'.db.funds.PaidPosted := by
        refine Leads.invariant (I := fun g => Funds.Lawful g ∧ g.PaidPosted) (hstep.path hs.lawful)
          ⟨hs.lawful.funds, hI⟩ ?_
        rintro g c g' - ⟨hg, hp⟩ hstep
        exact ⟨hg.step hstep, hp.step hg.rows hg.paid hstep⟩
      exact hboth.2
  refine ⟨fun id w hw => ⟨?_, fun s' hrun => ?_⟩, fun e x y => hf.pays_one, fun id s' hrelease => ?_,
    fun aid a ha hne => ?_, hf.pending, fun aid aid' m t t' => hf.weekly.apart⟩
  · exact
      { pending := by
          rw [h.reconciled _ ⟨by simp, by simp⟩, Funds.booked_pending hf.rows hw]
          cases hs : w.state <;> simp [WithdrawalState.isPending]
        unresolved := fun aid a aid' a' ha ha' hid hid' hnone hnone' =>
          PaymentsFit.alone hf.paid ha ha' (hid.trans hid'.symm)
            (fun o ho => by rw [hnone] at ho; cases ho) fun o ho => by rw [hnone'] at ho; cases ho
        uncertain := hf.paid.uncertain_iff hw
        paidOnce := fun aid a o aid' a' o' ha ha' hid hid' ho ho' hpaid hpaid' =>
          PaymentsFit.alone hf.paid ha ha' (hid.trans hid'.symm)
            (fun x hx => by rwa [Option.some.inj (hx.symm.trans ho)])
            fun x hx => by rwa [Option.some.inj (hx.symm.trans ho')]
        sent := Funds.sentFor_eq hf hposted hw
        recipient := by
          intro e he
          obtain ⟨-, -, -, -, -, -, -, -, -, -, -, -, ht⟩ := hf.paid_send hw he
          exact ht }
  · obtain ⟨w', hw', hx⟩ := (Sys.run_extends h.lawful hrun).withdrawal hw
    exact ⟨w', hw', hx.amount, hx.recipient⟩
  · obtain ⟨w, hw, hunsent⟩ : ∃ w, s.db.funds.withdrawals.lookup id = some w ∧
        (w.state ≠ .uncertain ∧ w.state ≠ .paid) := by
      cases hrelease with
      | funds hrelease =>
          cases hrelease with
          | release hrelease => exact Withdrawals.release_unsent hrelease
    refine ⟨fun aid a ha hid hnone => hunsent.1 ?_, w, hw, hunsent⟩
    exact (hf.paid.uncertain_iff hw).mpr ⟨aid, a, ha, hid, hnone⟩
  · rw [h.reconciled _ ⟨by simp, by simp⟩, Funds.booked_gasHold hf.rows ha, if_neg hne]

namespace PaidDay

open FirstDay (wallet network around)

def limits : CapLimits where
  tigFeeWindowUnits := tig
  tigFeeAttemptUnits := tig
  nativeFeeWindowUnits := 10
  nativeFeeAttemptUnits := 5

def evidence : Json := .obj [("k", .int 1)]

/-- Native units for the operator's gas. -/
def gasFunding : ConfirmedTransaction where
  network := network
  txHash := "0x10"
  sender := "0x00000000000000000000000000000000000000cc"
  recipient := some network.custody
  nonce := 0
  successful := true
  value := 10
  fee := 1
  feeModel := "op-isthmus"
  blockNumber := 8
  blockHash := "0x08"
  blockTimestamp := 0
  evidence := .null

def preflight : CustodyPreflight where
  network := network
  nonce := 0
  tokenBalance := 1000 * tig
  nativeBalance := 10
  blockNumber := 8
  checkedAt := 0
  evidence := .null

/-- The payment as the chain shows it; it costs 2 of the 4 units of gas held for it. -/
def payment : ConfirmedTransaction :=
  { gasFunding with
    txHash := "0x11", sender := network.custody, recipient := some network.token
    value := 0, fee := 2, blockNumber := 9, blockHash := "0x09" }

def transfer : ConfirmedTransfer :=
  { FirstDay.deposit with
    txHash := "0x11", blockNumber := 9, blockHash := "0x09", sender := network.custody
    recipient := wallet, amount := 3 * tig }

/-- A member's withdrawal is approved and may have been sent. -/
def sending : Result (Db × SpendingCap) := do
  let db ← initializeAccounts migrated
  let (db, _) ← registerVerified db wallet "member"
  let db ← setCap db 3600 limits "operator" "start" "cap" "cap"
  let (db, _) ← Deposits.receive db FirstDay.deposit
  let db ← Custody.receiveNative db gasFunding
  let (db, _) ← Withdrawals.request db "member" "cash" (3 * tig) "withdrawal"
  let db ← Withdrawals.approve db "withdrawal" network "op-isthmus" "operator" evidence
  let cap ← fetch (Spending.current db) (.conflict "no spending cap")
  let (db, _) ← Withdrawals.begin db "withdrawal" "send" preflight 4 "operator" none around
    "attempt" (some cap)
  return (db, cap)

/-- The chain shows the payment. -/
def paying (db : Db) : Result Db := do
  let db ← Withdrawals.reconcileEvidence db "attempt" payment (some transfer)
  let (db, _) ← Withdrawals.reconcile db "attempt" payment (some transfer)
  return db

theorem sending_reachable {db : Db} {cap : SpendingCap} (h : sending = .ok (db, cap)) :
    Sys.Reachable Sys.Uncorrected ⟨db, { Held.empty with caps := [cap] }⟩ := by
  simp only [sending, bind_eq_ok, fetch_eq_ok, pure_eq_ok, Prod.mk.injEq] at h
  obtain ⟨db₁, h₁, ⟨db₂, _⟩, h₂, db₃, h₃, ⟨db₄, _⟩, h₄, db₅, h₅, ⟨db₆, _⟩, h₆, db₇, h₇, _, hcap,
    ⟨_, _⟩, h₈, rfl, rfl⟩ := h
  have hopened : Sys.Reachable Sys.Uncorrected ⟨db₁, Held.empty⟩ :=
    ⟨_, Sys.initial_migrated, .one (by simp [Sys.Uncorrected]) (.funds (.initializeAccounts h₁))⟩
  have hcapped := (hopened.step (by simp [Sys.Uncorrected]) (.funds (.registerVerified h₂))).step
    (by simp [Sys.Uncorrected]) (.work (.setCap h₃))
  have hfunded := (hcapped.step (by simp [Sys.Uncorrected]) (.funds (.receive h₄))).step
    (by simp [Sys.Uncorrected]) (.funds (.receiveNative h₅))
  have happroved := (hfunded.step (by simp [Sys.Uncorrected]) (.funds (.request h₆))).step
    (by simp [Sys.Uncorrected]) (.funds (.approve h₇))
  exact (happroved.step (by simp [Sys.Uncorrected]) (.hold (.readCap hcap))).step
    (by simp [Sys.Uncorrected]) (.funds (.begin (List.mem_cons_self ..) h₈))

theorem paying_reachable {db db' : Db} {held : Held}
    (hs : Sys.Reachable Sys.Uncorrected ⟨db, held⟩) (h : paying db = .ok db') :
    Sys.Reachable Sys.Uncorrected
      ⟨db', { held with attempts := ("attempt", payment, some transfer) :: held.attempts }⟩ := by
  simp only [paying, bind_eq_ok, pure_eq_ok] at h
  obtain ⟨db₁, hsave, ⟨_, _⟩, hreconcile, rfl⟩ := h
  exact (hs.step (by simp [Sys.Uncorrected]) (.hold (.reconcileEvidence hsave))).step
    (by simp [Sys.Uncorrected]) (.funds (.reconcile (List.mem_cons_self ..) hreconcile))

def sent : Sys :=
  (sending.toOption.map fun out => ⟨out.1, { Held.empty with caps := [out.2] }⟩).getD
    ⟨migrated, Held.empty⟩

def paid : Sys where
  db := (paying sent.db).toOption.getD migrated
  held := { sent.held with attempts := ("attempt", payment, some transfer) :: sent.held.attempts }

theorem sent_reachable : Sys.Reachable Sys.Uncorrected sent := by
  have hrun : sending.toOption.isSome = true := by decide +kernel
  obtain ⟨⟨db, cap⟩, hout⟩ := Option.isSome_iff_exists.mp hrun
  rw [sent, hout]
  exact sending_reachable (eq_ok_of_toOption hout)

theorem paid_reachable : Sys.Reachable Sys.Uncorrected paid :=
  paying_reachable sent_reachable (eq_ok_getD (by decide +kernel))

end PaidDay

/-- The withdrawal of the day, when it may have been sent and when it is paid. -/
theorem withdrawal_accounts_paid :
    (∃ w, PaidDay.sent.db.funds.withdrawals.lookup "withdrawal" = some w ∧
      w.state = .uncertain ∧ WithdrawalAccounts PaidDay.sent.db.funds "withdrawal" w ∧
      PaidDay.sent.db.funds.ledger.balance (Withdrawals.pending "withdrawal") = 3 * tig) ∧
    (∃ w, PaidDay.paid.db.funds.withdrawals.lookup "withdrawal" = some w ∧
      w.state = .paid ∧ WithdrawalAccounts PaidDay.paid.db.funds "withdrawal" w ∧
      PaidDay.paid.db.funds.sentFor "withdrawal" = 3 * tig) ∧
    ∃ a, PaidDay.paid.db.funds.withdrawalAttempts.lookup "attempt" = some a ∧ a.outcome ≠ none ∧
      PaidDay.paid.db.funds.ledger.balance (Withdrawals.gasHold "attempt") = 0 := by
  obtain ⟨hbefore, -⟩ := withdrawal_accounts PaidDay.sent_reachable
  obtain ⟨hafter, -, -, hgas, -⟩ := withdrawal_accounts PaidDay.paid_reachable
  have hfacts : (PaidDay.sent.db.funds.withdrawals.lookup "withdrawal").any (fun w =>
        w.state = .uncertain ∧ w.amount = 3 * tig) = true ∧
      (PaidDay.paid.db.funds.withdrawals.lookup "withdrawal").any (fun w =>
        w.state = .paid ∧ w.amount = 3 * tig) = true ∧
      (PaidDay.paid.db.funds.withdrawalAttempts.lookup "attempt").any
        (·.outcome ≠ none) = true := by decide +kernel
  obtain ⟨hsent, hpaid, hattempt⟩ := hfacts
  obtain ⟨w, hw, hw'⟩ := (Option.any_eq_true _ _).mp hsent
  obtain ⟨x, hx, hx'⟩ := (Option.any_eq_true _ _).mp hpaid
  obtain ⟨a, ha, hresolved⟩ := (Option.any_eq_true _ _).mp hattempt
  obtain ⟨hstate, hamount⟩ := of_decide_eq_true hw'
  obtain ⟨hstate', hamount'⟩ := of_decide_eq_true hx'
  have hwaits := (hbefore "withdrawal" w hw).1
  have hleft := (hafter "withdrawal" x hx).1
  refine ⟨⟨w, hw, hstate, hwaits, ?_⟩, ⟨x, hx, hstate', hleft, ?_⟩, a, ha,
    of_decide_eq_true hresolved, hgas "attempt" a ha (of_decide_eq_true hresolved)⟩
  · rw [hwaits.pending, if_pos (.inr (.inr hstate)), hamount]
    rfl
  · rw [hleft.sent, if_pos hstate', hamount']
    rfl

end TigPool
