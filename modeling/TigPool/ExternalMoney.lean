/-
# `TigPool.ExternalMoney` — external money is counted once

Money comes into custody with the opening baseline and with the transfers that
`receive` credits, and leaves it with the transfers linked to custody payments; it
comes to the protocol with opening credits and credited top-ups, and leaves it with
the fees TIG charges.  The books know all of these by row, and the ledger agrees with
the books, so the two backings are sums over rows, where each row counts once.

The other half is that nothing counts again.  `Funds.Counts` says which changes move
external money, and that each does so only while its row is not yet on record; since
rows stay on record, an operation that runs again moves nothing.
-/
import TigPool.CreditLedger
import TigPool.TopupCycle

namespace TigPool

open Basis

namespace Funds

variable {f f' : Funds} {c : Change} {L : Change → Prop}

/-! ## What came in and what went out -/

/-- What custody held when the observer started. -/
def openingIn (f : Funds) : ℤ :=
  f.openingBaseline.elim 0 (·.tig)

/-- The incoming transfers that are credited, each event once. -/
def receivedIn (f : Funds) : ℤ :=
  f.transfers.total fun e t => if f.ledger.received e = true then (t.amount : ℤ) else 0

/-- The credited top-ups and the opening credits of the protocol balance. -/
def protocolIn (f : Funds) : ℤ :=
  f.protocolTopups.total (fun _ t => if t.credit.isSome then (t.amount : ℤ) else 0) +
    (f.protocolOpeningCredits.total (fun _ c => (c.amount : ℤ)) +
      f.mainnetOpeningCredits.total fun _ c => (c.amount : ℤ))

/-- What TIG has charged for all reservations. -/
def feesOut (f : Funds) : ℤ :=
  f.reservations.total fun _ r => (r.feeActual.getD 0 : ℤ)

/-- An attribution moves money between the pool's own accounts. -/
theorem attribution_internal {t : Transfer} (ht : t.Lawful) {a : TransferAttribution}
    (ha : t.attribution = some a) (location : Location) :
    a.destination ≠ .external location .TIG := by
  rcases ht.destination a ha with ⟨hdeposit, -⟩ | ⟨r, -, hpot, -⟩
  · rintro heq
    rw [heq] at hdeposit
    cases hdeposit
  · rw [hpot]
    exact nofun

/-- A withdrawal takes money from the pool's own accounts. -/
theorem source_internal (w : Withdrawal) (location : Location) :
    Withdrawals.source w ≠ .external location .TIG := by
  unfold Withdrawals.source
  split <;> exact nofun

theorem booked_custody (hf : f.LawfulRows) :
    f.booked (.external .custody .TIG) = f.paidOut - (f.openingIn + f.receivedIn) := by
  have htransfers : f.bookedTransfers (.external .custody .TIG) = -f.receivedIn := by
    rw [bookedTransfers, receivedIn, ← Table.total_neg]
    refine Table.total_congr fun e t ht => ?_
    have hattribution : moved (t.attribution.elim [] fun a =>
        attributionMovements t.amount a.destination) (.external .custody .TIG) = 0 := by
      cases ha : t.attribution with
      | none => rfl
      | some a => simp [attributionMovements, attribution_internal (hf.transfer ht) ha]
    rw [Transfer.position, moved_append, hattribution]
    split <;> simp [receiptMovements]
  have hwithdrawals : f.bookedWithdrawals (.external .custody .TIG)
      = f.withdrawals.total fun _ w => if w.state = .paid then (w.amount : ℤ) else 0 :=
    Table.total_congr fun id w _ => by simp [Withdrawal.position, source_internal]
  have htopups : f.bookedTopups (.external .custody .TIG)
      = f.protocolTopups.total fun _ u => if u.state.sent = true then (u.amount : ℤ) else 0 :=
    Table.total_congr fun id u _ => by simp [ProtocolTopup.position, operatorFees]
  have hopenings : f.bookedOpenings (.external .custody .TIG) = -f.openingIn := by
    have hzero (n : ℕ) : moved (openingPosition n) (.external .custody .TIG) = 0 := by
      simp [openingPosition, operatorFees]
    rw [bookedOpenings, Table.total_eq_zero fun _ _ _ => hzero _,
      Table.total_eq_zero fun _ _ _ => hzero _, openingIn]
    cases f.openingBaseline <;> simp [OpeningBaseline.position]
  rw [booked, htransfers, hwithdrawals, htopups, hopenings, bookedReservations_zero rfl,
    bookedEarnings_zero rfl, bookedAttempts_zero rfl, paidOut]
  ring

theorem booked_protocol (hf : f.LawfulRows) :
    f.booked (.external .protocol .TIG) = f.feesOut - f.protocolIn := by
  have hreservations : f.bookedReservations (.external .protocol .TIG) = f.feesOut :=
    Table.total_congr fun id r _ => by
      simp [Reservation.position, Reservation.collateralPosition, Reservation.feePosition,
        operatorFees]
  have htopups : f.bookedTopups (.external .protocol .TIG)
      = -f.protocolTopups.total fun _ t => if t.credit.isSome then (t.amount : ℤ) else 0 := by
    rw [bookedTopups, ← Table.total_neg]
    exact Table.total_congr fun id t _ => by simp [ProtocolTopup.position, operatorFees]
  have hopening (n : ℕ) : moved (openingPosition n) (.external .protocol .TIG) = -(n : ℤ) := by
    simp [openingPosition, operatorFees]
  have hopenings : f.bookedOpenings (.external .protocol .TIG)
      = -(f.protocolOpeningCredits.total (fun _ c => (c.amount : ℤ)) +
        f.mainnetOpeningCredits.total fun _ c => (c.amount : ℤ)) := by
    simp only [bookedOpenings, hopening, Table.total_neg]
    cases f.openingBaseline <;> simp [OpeningBaseline.position] <;> ring
  rw [booked, hreservations, htopups, hopenings, bookedTransfers_zero hf rfl,
    bookedEarnings_zero rfl, bookedWithdrawals_zero rfl, bookedAttempts_zero rfl, protocolIn]
  ring

/-! ## What counts, and when -/

/-- The change moves external money: what it records is not on record yet. -/
def Counts (f : Funds) : Change → Prop
  | .corrected => True
  | .received e => f.ledger.received e = false
  | .reconciled _ aid _ => ∀ a, f.withdrawalAttempts.lookup aid = some a → a.outcome = none
  | .topupReconciled id _ => ∀ t, f.protocolTopups.lookup id = some t → t.state = .uncertain
  | .topupCredited id => ∀ t, f.protocolTopups.lookup id = some t → t.credit = none
  | .accepted id | .unstarted id _ =>
      ∀ r, f.reservations.lookup id = some r → r.feeActual = none
  | .streamOpened => f.chainStream = none
  | .protocolOpened source => f.protocolOpeningCredits.lookup source = none
  | .mainnetOpened topup => f.mainnetOpeningCredits.lookup topup = none
  | _ => False

/-- What is on record stays on record. -/
theorem Counts.mono (h : f.Extends f') (hc : f'.Counts c) : f.Counts c := by
  cases c with
  | corrected => trivial
  | received e =>
      by_contra hreceived
      obtain ⟨j, hj⟩ := Option.isSome_iff_exists.mp (Bool.of_not_eq_false hreceived)
      rw [Counts, Ledger.received, h.journal.lookup hj] at hc
      cases hc
  | reconciled w aid o =>
      intro a ha
      obtain ⟨a', ha', hx⟩ := h.attempt ha
      exact hx.outcome.eq_none (hc a' ha')
  | topupReconciled id state =>
      intro t ht
      obtain ⟨t', ht', hx⟩ := h.topup ht
      by_contra hne
      exact (hx.resolved hne).1 (hc t' ht')
  | topupCredited id =>
      intro t ht
      obtain ⟨t', ht', hx⟩ := h.topup ht
      exact hx.credit.eq_none (hc t' ht')
  | accepted id =>
      intro r hr
      obtain ⟨r', hr', hx⟩ := h.reservation hr
      exact hx.feeActual.eq_none (hc r' hr')
  | unstarted id m =>
      intro r hr
      obtain ⟨r', hr', hx⟩ := h.reservation hr
      exact hx.feeActual.eq_none (hc r' hr')
  | streamOpened =>
      by_contra hsome
      have hstream := (h.baseline (Option.isSome_iff_ne_none.mpr hsome)).1
      rw [hc] at hstream
      cases hstream
  | protocolOpened source =>
      by_contra hsome
      obtain ⟨row, hrow⟩ := Option.ne_none_iff_exists'.mp hsome
      have hc' : f'.protocolOpeningCredits.lookup source = none := hc
      rw [h.protocolOpening.lookup hrow] at hc'
      cases hc'
  | mainnetOpened topup =>
      by_contra hsome
      obtain ⟨row, hrow⟩ := Option.ne_none_iff_exists'.mp hsome
      have hc' : f'.mainnetOpeningCredits.lookup topup = none := hc
      rw [h.mainnetOpening.lookup hrow] at hc'
      cases hc'
  | _ => exact hc.elim

/-- A change that does not count leaves external money where it is. -/
theorem Step.external (hl : f.LawfulRows) (h : Step f c f') (hc : ¬ f.Counts c)
    (location : Location) :
    f'.ledger.balance (.external location .TIG) = f.ledger.balance (.external location .TIG) := by
  have hstill {key : EventKey} {m : Movements AccountId} {ledger ledger' : Ledger}
      (hr : ledger.Recorded key m ledger') (hm : ∀ p ∈ m, p.1 ≠ .external location .TIG) :
      ledger'.balance (.external location .TIG) = ledger.balance (.external location .TIG) := by
    rw [hr.balance, moved_eq_zero hm, add_zero]
  cases h with
  | opened hnone => exact Ledger.balance_opened hnone
  | corrected => exact absurd trivial hc
  | nativeFunded _ _ hr => exact hstill hr (by simp [nativeMovements])
  | received _ _ hr =>
      rcases hr with ⟨rfl, -⟩ | ⟨_, _, _, -, hpost, -, -⟩
      · rfl
      · exact absurd (by rw [Counts, Ledger.received, hpost.fresh]; rfl) hc
  | @attributed _ _ a _ _ _ _ hdeposit hr =>
      refine hstill hr ?_
      have hne : a.destination ≠ .external location .TIG := by
        rintro heq
        rw [heq] at hdeposit
        cases hdeposit
      simp [attributionMovements, hne]
  | rewarded _ _ _ _ _ _ _ _ hr => exact hstill hr (by simp [attributionMovements])
  | reserved _ _ _ _ _ _ hr => exact hstill hr (by simp [reserveMovements, operatorFees])
  | accepted hr hstate =>
      refine absurd (fun r' hr' => ?_) hc
      obtain rfl := Option.some.inj (hr.symm.trans hr')
      exact ((hl.reservation hr).shape.of_unaccepted (.inr hstate)).1
  | unstarted hr hstate =>
      refine absurd (fun r' hr' => ?_) hc
      obtain rfl := Option.some.inj (hr.symm.trans hr')
      exact ((hl.reservation hr).shape.of_unaccepted
        (hstate.elim (fun h => .inr h.1) fun h => .inl h.1)).1
  | unhanded _ _ _ hr => exact hstill hr (by simp [resolveMovements])
  | finalized _ _ _ _ hdestination hr =>
      rcases hdestination with ⟨-, rfl⟩ | ⟨-, rfl⟩ <;>
        exact hstill hr (by simp [resolveMovements])
  | reimbursed _ _ _ hr => exact hstill hr (by simp [reimburseMovements])
  | settled _ _ _ _ _ _ _ _ hr =>
      refine hstill hr fun p hp => ?_
      rcases List.mem_cons.mp hp with rfl | hp
      · simp
      · rcases List.mem_cons.mp hp with rfl | hp
        · simp
        · obtain ⟨a, -, rfl⟩ := List.mem_map.mp hp
          simp
  | requested _ _ _ _ _ _ _ _ hr =>
      exact hstill hr (by simp [requestMovements, source_internal])
  | released _ _ _ hr => exact hstill hr (by simp [releaseMovements, source_internal])
  | begun _ _ _ _ _ _ _ _ _ _ _ hr => exact hstill hr (by simp [gasMovements])
  | unpaid ha hopen =>
      refine absurd (fun a' ha' => ?_) hc
      obtain rfl := Option.some.inj (ha.symm.trans ha')
      exact hopen
  | paid ha hopen =>
      refine absurd (fun a' ha' => ?_) hc
      obtain rfl := Option.some.inj (ha.symm.trans ha')
      exact hopen
  | topupBegun _ _ _ _ hr => exact hstill hr (by simp [topupMovements])
  | topupReconciled ht hstate =>
      refine absurd (fun t' ht' => ?_) hc
      obtain rfl := Option.some.inj (ht.symm.trans ht')
      exact hstate
  | topupCredited ht _ hnone =>
      refine absurd (fun t' ht' => ?_) hc
      obtain rfl := Option.some.inj (ht.symm.trans ht')
      exact hnone
  | streamOpened hnone => exact absurd hnone hc
  | protocolOpened hnone => exact absurd hnone hc
  | mainnetOpened hnone => exact absurd hnone hc
  | _ => rfl

/-- A path of changes none of which counts leaves external money where it is. -/
theorem Path.external (h : Path L f f') (hf : f.Lawful) (hL : ∀ c, L c → ¬ f.Counts c)
    (location : Location) :
    f'.ledger.balance (.external location .TIG) = f.ledger.balance (.external location .TIG) := by
  have hall : f.Extends f' ∧ f'.Lawful ∧
      f'.ledger.balance (.external location .TIG) = f.ledger.balance (.external location .TIG) := by
    refine Leads.invariant (I := fun g => f.Extends g ∧ g.Lawful ∧
      g.ledger.balance (.external location .TIG) = f.ledger.balance (.external location .TIG)) h
      ⟨.refl f, hf, rfl⟩ ?_
    rintro g c g' hc ⟨hext, hg, hsame⟩ hstep
    refine ⟨hext.trans (hstep.extends hg.rows), hg.step hstep, ?_⟩
    rw [hstep.external hg.rows (fun hcounts => hL c hc (hcounts.mono hext)), hsame]
  exact hall.2.2

end Funds

/-! ## Opening credits -/

/-- The two credits are for one event. -/
def MainnetOpeningCredit.SameEvent (c c' : MainnetOpeningCredit) : Prop :=
  c.txHash = c'.txHash ∧ c.logIndex = c'.logIndex

/-- Either the credit was on record, or it is the first for its event. -/
theorem Prelaunch.creditMainnetTopup_cases {db db' : Db} {captureId : String}
    {transaction : ConfirmedTransaction} {transfer : ConfirmedTransfer} {actor reason : String}
    {out : MainnetOpeningCredit}
    (h : Prelaunch.creditMainnetTopup db captureId transaction transfer actor reason
      = .ok (db', out)) :
    (db'.funds.ledger = db.funds.ledger ∧
        db'.funds.mainnetOpeningCredits = db.funds.mainnetOpeningCredits) ∨
      ∃ topupId, db'.funds.mainnetOpeningCredits
          = AList.insert topupId out db.funds.mainnetOpeningCredits ∧
        ∀ {k row}, db.funds.mainnetOpeningCredits.lookup k = some row → ¬ row.SameEvent out := by
  simp only [Prelaunch.creditMainnetTopup, bind_eq_ok, require_eq_ok, exists_const] at h
  obtain ⟨-, -, -, ⟨capture, snapshot⟩, -, -, -, h⟩ := h
  split at h
  next topupId topup htopups =>
    simp only [bind_eq_ok, require_eq_ok, exists_const] at h
    obtain ⟨-, db₁, hbind, -, h⟩ := h
    obtain ⟨rfl, -⟩ := Custody.bind_spec hbind
    split at h
    next =>
      simp only [bind_eq_ok, require_eq_ok, exists_const, pure_eq_ok, Prod.mk.injEq] at h
      obtain ⟨-, rfl, -⟩ := h
      exact .inl ⟨rfl, rfl⟩
    next =>
      simp only [bind_eq_ok, require_eq_ok, exists_const, pure_eq_ok, Prod.mk.injEq] at h
      obtain ⟨-, -, l, -, hfirst, rfl, rfl⟩ := h
      refine .inr ⟨topupId, rfl, fun {k row} hrow hsame => ?_⟩
      exact of_decide_eq_false (Table.any_eq_false.mp hfirst k row hrow) hsame
  next => cases h

namespace Funds

variable {f f' : Funds} {L : Change → Prop}

theorem Path.mainnetOpenings (h : Path L f f') (hL : ∀ topup, ¬ L (.mainnetOpened topup)) :
    f'.mainnetOpeningCredits = f.mainnetOpeningCredits := by
  refine Leads.invariant (I := fun g => g.mainnetOpeningCredits = f.mainnetOpeningCredits) h rfl ?_
  intro g c g' hc hI hstep
  cases hstep with
  | mainnetOpened => exact absurd hc (hL _)
  | _ => exact hI

/-- What the chain guarantees: a top-up begins after the opening credits, so its preflight reads
a block that is no lower than theirs, and a transaction is in one block. -/
structure ChainConsistent (f : Funds) : Prop where
  later : ∀ {topupId c id t}, f.mainnetOpeningCredits.lookup topupId = some c →
    f.protocolTopups.lookup id = some t → c.baseBlock ≤ t.preflightBlock
  block : ∀ {topupId c chainId tx}, f.mainnetOpeningCredits.lookup topupId = some c →
    f.chainTransactions.lookup (chainId, c.txHash) = some tx → tx.blockNumber = c.baseBlock

/-- A top-up is never credited for the event of an opening credit. -/
theorem Lawful.opening_apart (hf : f.Lawful) (hchain : f.ChainConsistent) {topupId : String}
    {c : MainnetOpeningCredit} {id : Uuid} {t : ProtocolTopup} {credit : TopupCredit}
    (hc : f.mainnetOpeningCredits.lookup topupId = some c)
    (ht : f.protocolTopups.lookup id = some t) (hcredit : t.credit = some credit) :
    credit.topupId ≠ topupId ∧ credit.transferEvent.txHash ≠ c.txHash := by
  have hsent : t.state.sent = true := by
    rw [(hf.rows.topup ht).credit.mp (Option.isSome_of_eq_some hcredit)]
    rfl
  obtain ⟨s, p, e, row, tx, hs⟩ := hf.evidenced.sent ht hsent
  obtain ⟨hconfirmed, s', p', hs', hp', he'⟩ := hf.credits.credit ht hcredit
  obtain rfl := Option.some.inj (hs.send.symm.trans hs')
  obtain rfl := Option.some.inj (hs.payment.symm.trans hp')
  obtain rfl := Option.some.inj (hs.event.symm.trans he')
  have hapart : credit.transferEvent.txHash ≠ c.txHash := by
    intro hsame
    have htx := hs.transaction
    rw [← hs.txHash, hsame] at htx
    have hblock := hs.block
    rw [hchain.block hc htx] at hblock
    exact absurd (hchain.later hc ht) (Nat.not_le.mpr hblock)
  refine ⟨?_, hapart⟩
  rintro rfl
  exact hapart (hconfirmed.unique (hf.credits.opening hc)).1

end Funds

/-! ## Running again -/

/-- A transaction about external money runs again, on what is on record already. -/
inductive Replays (s : Sys) : Db → Prop
  | receive {transfer : ConfirmedTransfer} {out : AccountId} {db' : Db} :
      s.db.funds.ledger.received transfer.eventId = true →
      Deposits.receive s.db transfer = .ok (db', out) → Replays s db'
  | recordTransfer {transfer : ConfirmedTransfer} {db' : Db} :
      s.db.funds.ledger.received transfer.eventId = true →
      ChainObserver.recordTransfer s.db transfer = .ok db' → Replays s db'
  | attributeReviewed {transfer : ConfirmedTransfer} {actor : String} {evidence : Json}
      {destination : Deposits.ReviewedDestination} {db' : Db} :
      Deposits.attributeReviewed s.db transfer actor evidence destination = .ok db' → Replays s db'
  | attributeReceipt {round : ℤ} {transfer : ConfirmedTransfer} {evidence : Json}
      {out : RoundReceipt} {db' : Db} :
      Settlement.attributeReceipt s.db round transfer evidence = .ok (db', out) → Replays s db'
  | reconcile {attempt : Uuid} {a : WithdrawalAttempt} {transaction : ConfirmedTransaction}
      {transfer : Option ConfirmedTransfer} {out : AttemptOutcome} {db' : Db} :
      (attempt, transaction, transfer) ∈ s.held.attempts →
      s.db.funds.withdrawalAttempts.lookup attempt = some a → a.outcome ≠ none →
      Withdrawals.reconcile s.db attempt transaction transfer = .ok (db', out) → Replays s db'
  | reconcileSponsored {attempt : Uuid} {a : WithdrawalAttempt} {recovery : SponsoredWithdrawal}
      {actor reason : String} {out : AttemptOutcome} {db' : Db} :
      s.db.funds.withdrawalAttempts.lookup attempt = some a → a.outcome ≠ none →
      Withdrawals.reconcileSponsored s.db attempt recovery actor reason = .ok (db', out) →
      Replays s db'
  | reconcileTopup {identity : Uuid} {t : ProtocolTopup} {transaction : ConfirmedTransaction}
      {transfer : Option ConfirmedTransfer} {out : TopupState} {db' : Db} :
      (identity, transaction) ∈ s.held.topups →
      s.db.funds.protocolTopups.lookup identity = some t → t.state ≠ .uncertain →
      Topups.reconcile s.db identity transaction transfer = .ok (db', out) → Replays s db'
  | creditTopup {identity : Uuid} {t : ProtocolTopup} {value : Topups.Instructions}
      {captureId : String} {out : TopupCredit} {db' : Db} :
      (identity, value) ∈ s.held.instructions →
      s.db.funds.protocolTopups.lookup identity = some t → t.credit ≠ none →
      Topups.credit s.db identity value captureId = .ok (db', out) → Replays s db'
  | initializeCredit {captureId playerId actor : String} {out : ProtocolOpeningCredit} {db' : Db} :
      s.db.funds.protocolOpeningCredits.lookup StarterCredit.source ≠ none →
      StarterCredit.initializeCredit s.db captureId playerId actor = .ok (db', out) → Replays s db'
  | creditMainnetTopup {captureId topupId : String} {transaction : ConfirmedTransaction}
      {transfer : ConfirmedTransfer} {actor reason : String} {out : MainnetOpeningCredit}
      {db' : Db} : s.db.funds.mainnetOpeningCredits.lookup topupId = some out →
      Prelaunch.creditMainnetTopup s.db captureId transaction transfer actor reason
        = .ok (db', out) → Replays s db'

/-- Moves none of whose changes counts leave what the pool holds as it is. -/
theorem Db.Moves.backing {db db' : Db} {cs : List Change} (h : db.Moves (Only cs) db')
    (hf : db.funds.Lawful) (hcs : ∀ c ∈ cs, ¬ db.funds.Counts c) (location : Location) :
    db'.funds.ledger.backing .TIG location = db.funds.ledger.backing .TIG location := by
  rw [(h.path.lawful hf).sound.backing_eq, hf.sound.backing_eq,
    Funds.Path.external h.path hf ?_ location]
  rintro c (hquiet | hc) hcounts
  · cases c <;> first | exact hquiet | exact hcounts
  · exact hcs c hc hcounts

/-- A change of a row that is on record does not count. -/
theorem Replays.backing {s : Sys} (hs : s.Lawful) {db' : Db} (h : Replays s db')
    (location : Location) :
    db'.funds.ledger.backing .TIG location = s.db.funds.ledger.backing .TIG location := by
  have hf := hs.funds
  cases h with
  | receive hreceived h =>
      refine (Deposits.receive_moves hf h).backing hf ?_ location
      simp [Funds.Counts, hreceived]
  | recordTransfer hreceived h =>
      obtain ⟨a, hm⟩ := ChainObserver.recordTransfer_moves hf h
      refine hm.backing hf ?_ location
      simp [Funds.Counts, hreceived]
  | attributeReviewed h =>
      exact (Deposits.attributeReviewed_moves hf h).backing hf (by simp [Funds.Counts]) location
  | attributeReceipt h =>
      exact (Settlement.attributeReceipt_moves hf h).backing hf (by simp [Funds.Counts]) location
  | reconcile hmem ha hsome h =>
      obtain ⟨hsaved, a', ha', htime⟩ := hs.held.attempts hmem
      obtain ⟨_, -, hm⟩ := Withdrawals.reconcile_moves hf hsaved (fun ha'' => by
        obtain rfl := Option.some.inj (ha'.symm.trans ha'')
        exact htime) h
      refine hm.backing hf (fun c hc hcounts => ?_) location
      obtain rfl := List.mem_singleton.mp hc
      exact hsome (hcounts _ ha)
  | reconcileSponsored ha hsome h =>
      obtain ⟨_, -, hm⟩ := Withdrawals.reconcileSponsored_moves hf h
      refine hm.backing hf (fun c hc hcounts => ?_) location
      obtain rfl := List.mem_singleton.mp hc
      exact hsome (hcounts _ ha)
  | reconcileTopup hmem ht hresolved h =>
      have hm := Topups.reconcile_moves hf (hs.held.topups hmem) h
      refine hm.backing hf (fun c hc hcounts => ?_) location
      obtain rfl := List.mem_singleton.mp hc
      exact hresolved (hcounts _ ht)
  | creditTopup hmem ht hsome h =>
      obtain ⟨hrow, hsend⟩ := hs.held.instructions hmem
      refine (Topups.credit_moves hf hrow hsend h).backing hf (fun c hc hcounts => ?_) location
      obtain rfl := List.mem_singleton.mp hc
      exact hsome (hcounts _ ht)
  | initializeCredit hsome h =>
      refine (StarterCredit.initializeCredit_moves hf h).backing hf (fun c hc hcounts => ?_)
        location
      obtain rfl := List.mem_singleton.mp hc
      exact hsome hcounts
  | creditMainnetTopup hrecorded h =>
      rcases Prelaunch.creditMainnetTopup_cases h with ⟨hledger, -⟩ | ⟨_, -, hfirst⟩
      · rw [hledger]
      · exact absurd ⟨rfl, rfl⟩ (hfirst hrecorded)

namespace Sys

variable {s s' : Sys} {a : Action} {allowed : Sys → Action → Prop}

theorem does_mainnetOpened {db : Db} {topup : String} (h : a.does db (.mainnetOpened topup)) :
    a = .funds .creditMainnetTopup := by
  cases a with
  | funds a => cases a <;> simp_all [Action.does, FundsAction.does, Change.Quiet]
  | work a => cases a <;> simp_all [Action.does, WorkAction.does, Change.Quiet]
  | _ => simp_all [Action.does, Change.Quiet]

/-- No event is behind two opening credits. -/
theorem Reachable.openings_apart (h : Reachable allowed s) :
    Table.Distinct MainnetOpeningCredit.SameEvent s.db.funds.mainnetOpeningCredits := by
  refine Reachable.invariant (I := fun s =>
    Table.Distinct MainnetOpeningCredit.SameEvent s.db.funds.mainnetOpeningCredits) h ?_ ?_
  · intro s hs
    rw [hs.funds]
    exact .empty
  · intro s a s' _ hs hI hstep
    by_cases ha : a = .funds .creditMainnetTopup
    · subst ha
      cases hstep with
      | funds h =>
          cases h with
          | creditMainnetTopup h =>
              rcases Prelaunch.creditMainnetTopup_cases h with ⟨-, heq⟩ | ⟨_, heq, hfirst⟩
              · exact heq ▸ hI
              · show Table.Distinct _ _
                rw [heq]
                exact hI.insert (fun _ _ hsame => ⟨hsame.1.symm, hsame.2.symm⟩)
                  fun k row _ hrow hsame => hfirst hrow ⟨hsame.1.symm, hsame.2.symm⟩
    · rw [Funds.Path.mainnetOpenings (hstep.path hs.lawful)
        fun topup hdoes => ha (does_mainnetOpened hdoes)]
      exact hI

end Sys

/-! ## The two backings -/

/-- Where the pool's money came from, and where it went. -/
structure ExternalMoney (f : Funds) : Prop where
  custody : f.ledger.backing .TIG .custody = f.openingIn + f.receivedIn - f.linkedOut
  protocol : f.ledger.backing .TIG .protocol = f.protocolIn - f.feesOut
  /-- Only transfers on record that came in are credited. -/
  received : ∀ {e}, f.ledger.received e = true → ∃ t, f.transfers.lookup e = some t ∧
    t.incoming f.wallet = true
  /-- Each payment is linked to a transfer out of custody, which no other is linked to. -/
  linked : ∀ {id s p e}, f.custodySends.lookup id = some s → s.payment = some p →
    p.transferEvent = some e → (∃ t, f.transfers.lookup e = some t ∧ some t.sender = f.wallet) ∧
      ∀ {id' s' p'}, f.custodySends.lookup id' = some s' → s'.payment = some p' →
        p'.transferEvent = some e → id' = id
  /-- No transfer is both a round reward and a deposit of a member. -/
  single : ∀ {e t r a member}, f.transfers.lookup e = some t → t.roundReceipt = some r →
    t.attribution = some a → a.destination ≠ available member
  topups : ∀ {id id' t t' credit credit'}, f.protocolTopups.lookup id = some t →
    f.protocolTopups.lookup id' = some t' → t.credit = some credit → t'.credit = some credit' →
    (credit.topupId = credit'.topupId ∨ credit.transferEvent = credit'.transferEvent) → id = id'
  openings : Table.Distinct MainnetOpeningCredit.SameEvent f.mainnetOpeningCredits
  apart : f.ChainConsistent → ∀ {topupId c id t credit},
    f.mainnetOpeningCredits.lookup topupId = some c → f.protocolTopups.lookup id = some t →
    t.credit = some credit → credit.topupId ≠ topupId ∧ credit.transferEvent.txHash ≠ c.txHash

/-- In every state that transactions other than corrections reach, external money is counted
once, and no transaction that runs again moves any. -/
theorem external_money {s : Sys} (hs : Sys.Reachable Sys.Uncorrected s) :
    ExternalMoney s.db.funds ∧ ∀ db', Replays s db' → ∀ location,
      db'.funds.ledger.backing .TIG location = s.db.funds.ledger.backing .TIG location := by
  have hf := hs.lawful.funds
  have hbooked := hs.reconciled
  constructor
  · exact
      { custody := by
          rw [hf.sound.backing_eq, hbooked _ ⟨by simp, by simp⟩, Funds.booked_custody hf.rows,
            ← hf.linked]
          ring
        protocol := by
          rw [hf.sound.backing_eq, hbooked _ ⟨by simp, by simp⟩, Funds.booked_protocol hf.rows]
          ring
        received := fun {e} hreceived => by
          obtain ⟨j, hj⟩ := Option.isSome_iff_exists.mp hreceived
          obtain ⟨t, ht, hin, -⟩ := hf.explained hj
          exact ⟨t, ht, hin⟩
        linked := fun hsend hp he => ⟨hf.evidenced.linked hsend hp he, fun hsend' hp' he' =>
          PaymentsFit.event hf.paid hsend' hp' hsend hp he' he⟩
        single := fun ht hr ha => by
          rcases (hf.rows.transfer ht).destination _ ha with ⟨-, hnone⟩ | ⟨r', -, hpot, -⟩
          · rw [hr] at hnone
            cases hnone
          · rw [hpot]
            exact nofun
        topups := fun ht ht' hc hc' hsame => hf.credits.once ht ht' hc hc' hsame
        openings := hs.openings_apart
        apart := fun hchain _ _ _ _ _ hc ht hcredit => hf.opening_apart hchain hc ht hcredit }
  · exact fun db' hreplay => hreplay.backing hs.lawful

namespace FullDay

open CreditedDay (benchmarkId evidence tracks)
open FirstDay (network around)

def selection : WorkRequests.Selection :=
  { CreditedDay.selection with maxSubmissionFee := 5 }

/-- A block of the fourth round; the first is over for good. -/
def block : BlockStore.BlockCapture :=
  { CreditedDay.block with
    blockId := "block-6", height := 6, round := 4, previousId := "block-5"
    semanticDigest := "digest of block-6", accepted := ["digest of block-6"] }

def source : BlockStore.Source where
  attemptId := "second attempt"
  blockId := some "block-6"
  chunks := ["second chunk"]

/-- A reward of the protocol's. -/
def reward : ConfirmedTransfer :=
  { FirstDay.deposit with
    txHash := "0x30", sender := "0x00000000000000000000000000000000000000ee"
    amount := 100 * tig }

/-- A withdrawal is paid and a top-up is credited; then a member asks for work. -/
def asking : Result Sys := do
  let (db, cap) ← PaidDay.sending
  let db ← PaidDay.paying db
  let db ← FundedDay.topping db cap
  let (_, value, db) ← FundedDay.crediting db
  let db ← BlockStore.initializeStore db 0
  let db ← BlockStore.record db FirstDay.source (some CreditedDay.block) none
  let (db, _) ← WorkRequests.create db "member" "work" "CPU" "aws_t3" FirstDay.capacity 60
    "request"
  return ⟨db, { Held.empty with
    attempts := [("attempt", PaidDay.payment, some PaidDay.transfer)]
    topups := [("topup", FundedDay.payment)], instructions := [("topup", value)], caps := [cap] }⟩

/-- TIG charges 5 units for the benchmark, and a reward comes in for its round. -/
def charging (db : Db) : Result Db := do
  let (db, _) ← WorkRequests.reserveNext db "block-0" (fun _ => .ok (some selection)) ["request"]
    around (fun _ => .ok ()) ⟨"benchmark", "intent"⟩
  let db ← Submissions.recordBinary db "benchmark" ResponseDay.url "digest"
  let (db, _) ← Submissions.begin db "intent" (some ResponseDay.preflight) around
  let (db, _) ← Submissions.recordResponse db "intent" ResponseDay.first "response"
    ResponseDay.unlimited
  let (db, _) ← Submissions.publishAssignment db "benchmark"
    (CreditedDay.confirmed benchmarkId "algorithm" "5" (.int 1)) (CreditedDay.charges "5")
    evidence ""
  let db ← BlockStore.record db source (some block) none
  let (db, _) ← Settlement.declareEarnings db 1 (100 * tig) 0 "block-6" evidence
  let db ← ChainObserver.recordTransfer db reward
  let (db, _) ← Settlement.attributeReceipt db 1 reward evidence
  return db

def day : Result Sys := do
  let s ← asking
  let db ← charging s.db
  return { s with db }

theorem asking_reachable {s : Sys} (h : asking = .ok s) : Sys.Reachable Sys.Uncorrected s := by
  simp only [asking, bind_eq_ok, pure_eq_ok] at h
  obtain ⟨⟨db₁, cap⟩, hsending, db₂, hpaying, db₃, htopping, ⟨_, value, db₄⟩, hcrediting, db₅, h₅,
    db₆, h₆, ⟨_, _⟩, h₇, rfl⟩ := h
  have htopped := FundedDay.topping_reachable (List.mem_cons_self ..)
    (PaidDay.paying_reachable (PaidDay.sending_reachable hsending) hpaying) htopping
  obtain ⟨hleft, hcredit⟩ := FundedDay.crediting_reachable htopped hcrediting
  have hwatching := (hleft.step (by simp [Sys.Uncorrected]) hcredit).step
    (by simp [Sys.Uncorrected]) (.observe (.initializeStore h₅))
  exact (hwatching.step (by simp [Sys.Uncorrected]) (.observe (.record h₆))).step
    (by simp [Sys.Uncorrected]) (.work (.create h₇))

theorem charging_reachable {db db' : Db} {held : Held}
    (hchoice : WorkRequests.Chooses db "block-0" fun _ => .ok (some selection))
    (hs : Sys.Reachable Sys.Uncorrected ⟨db, held⟩) (h : charging db = .ok db') :
    ∃ held', Sys.Reachable Sys.Uncorrected ⟨db', held'⟩ := by
  simp only [charging, bind_eq_ok, pure_eq_ok] at h
  obtain ⟨⟨db₁, _⟩, h₁, db₂, h₂, ⟨db₃, _⟩, h₃, ⟨db₄, _⟩, h₄, ⟨db₅, _⟩, h₅, db₆, h₆, ⟨db₇, _⟩, h₇,
    db₈, h₈, ⟨_, _⟩, h₉, rfl⟩ := h
  have hreserved := (hs.step (by simp [Sys.Uncorrected]) (.work (.reserveNext hchoice h₁))).step
    (by simp [Sys.Uncorrected]) (.work (.recordBinary h₂))
  have hsent := (hreserved.step (by simp [Sys.Uncorrected]) (.work (.begin h₃))).step
    (by simp [Sys.Uncorrected]) (.work (.recordResponse h₄))
  have hcharged := (hsent.step (by simp [Sys.Uncorrected]) (.work (.publishAssignment h₅))).step
    (by simp [Sys.Uncorrected]) (.observe (.record h₆))
  have hdeclared := (hcharged.step (by simp [Sys.Uncorrected]) (.funds (.declareEarnings h₇))).step
    (by simp [Sys.Uncorrected]) (.funds (.recordTransfer h₈))
  exact ⟨_, hdeclared.step (by simp [Sys.Uncorrected]) (.funds (.attributeReceipt h₉))⟩

theorem totals : day.toOption.any (fun (s : Sys) => s.db.funds.openingIn = 0 ∧
    s.db.funds.receivedIn = 1200 * tig ∧ s.db.funds.linkedOut = 53 * tig ∧
    s.db.funds.protocolIn = 50 * tig ∧ s.db.funds.feesOut = 5) = true := by
  simp only [day, asking, FundedDay.topping, FundedDay.crediting, Funding.record,
    FundedDay.address_custody]
  decide +kernel

/-- The reward is on record, and the deposit may be received again. -/
theorem receipts : day.toOption.all (fun s =>
    (s.db.funds.transfers.lookup reward.eventId).any (·.roundReceipt.isSome) ∧
    s.db.funds.ledger.received FirstDay.deposit.eventId = true ∧
    (Deposits.receive s.db FirstDay.deposit).toOption.isSome) = true := by
  simp only [day, asking, FundedDay.topping, FundedDay.crediting, Funding.record,
    FundedDay.address_custody]
  decide +kernel

theorem asked_round : (asking.toOption.map (·.db)).all (fun db =>
    (db.observation.blocks.lookup "block-0").all (·.round = 1)) = true := by
  simp only [asking, FundedDay.topping, FundedDay.crediting, Funding.record,
    FundedDay.address_custody]
  decide +kernel

theorem reached {s : Sys} (h : day = .ok s) :
    ∃ held, Sys.Reachable Sys.Uncorrected ⟨s.db, held⟩ := by
  simp only [day, bind_eq_ok, pure_eq_ok] at h
  obtain ⟨asked, hasking, db, hcharging, rfl⟩ := h
  have hseen : asking.toOption.map (·.db) = some asked.db := by
    rw [hasking]
    rfl
  have hchoice := @CreditedDay.chooses _ _ hseen asked_round selection _ rfl rfl rfl
  exact charging_reachable hchoice (asking_reachable hasking) hcharging

end FullDay

/-- 1000 TIG of a member, 100 of the operator and a reward of 100 came in, a withdrawal and a
top-up went out, and TIG has charged a fee. -/
theorem external_money_day : ∃ (s : Sys) (db' : Db), Sys.Reachable Sys.Uncorrected s ∧
    ExternalMoney s.db.funds ∧ Replays s db' ∧
    s.db.funds.ledger.backing .TIG .custody = 1147 * tig ∧
    s.db.funds.ledger.backing .TIG .protocol = 50 * tig - 5 ∧
    (∀ location, db'.funds.ledger.backing .TIG location
      = s.db.funds.ledger.backing .TIG location) ∧
    ∃ t r, s.db.funds.transfers.lookup FullDay.reward.eventId = some t ∧
      t.roundReceipt = some r ∧
      ∀ a member, t.attribution = some a → a.destination ≠ available member := by
  obtain ⟨s, hday, htotals⟩ := (Option.any_eq_true _ _).mp FullDay.totals
  obtain ⟨hopening, hreceived, hlinked, hprotocol, hfees⟩ := of_decide_eq_true htotals
  obtain ⟨hreward, hdeposit, hagain⟩ :=
    of_decide_eq_true ((Option.all_eq_true _ _).mp FullDay.receipts s hday)
  obtain ⟨held, hreach⟩ := FullDay.reached (eq_ok_of_toOption hday)
  obtain ⟨⟨db', out⟩, hout⟩ := Option.isSome_iff_exists.mp hagain
  obtain ⟨t, ht, hr⟩ := (Option.any_eq_true _ _).mp hreward
  obtain ⟨r, hr⟩ := Option.isSome_iff_exists.mp hr
  have hreplay : Replays ⟨s.db, held⟩ db' := .receive hdeposit (eq_ok_of_toOption hout)
  obtain ⟨hmoney, hsame⟩ := external_money hreach
  refine ⟨⟨s.db, held⟩, db', hreach, hmoney, hreplay, ?_, ?_, hsame db' hreplay, t, r, ht, hr,
    fun a member ha => hmoney.single ht hr ha⟩
  · rw [hmoney.custody, hopening, hreceived, hlinked]
    decide
  · rw [hmoney.protocol, hprotocol, hfees]

end TigPool
