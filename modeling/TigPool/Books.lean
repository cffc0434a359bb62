/-
# `TigPool.Books` — what every row says should be on each account

The ledger tells how each balance came about, journal by journal.  The books tell
what it should be, row by row: a reservation that is not yet resolved has taken
its amount from the member and holds it on its own account; a paid withdrawal has
taken it from the member and sent it outside; and so on.  A row's *position* is
that statement, as a list of movements since the row did not exist.

The two balances of the operator's gas money, `operator:custody:NATIVE` and
`external:custody:NATIVE`, are not in the books: no row records what a top-up
cost.
-/
import TigPool.Submissions

namespace TigPool

open Basis

/-! ## Positions -/

def receiptMovements (amount : ℕ) : Movements AccountId :=
  [(.external .custody .TIG, -(amount : ℤ)), (.unattributed, amount)]

def attributionMovements (amount : ℕ) (destination : AccountId) : Movements AccountId :=
  [(.unattributed, -(amount : ℤ)), (destination, amount)]

/-- Collateral leaves the member, waits, and comes back or goes to a pot. -/
def Reservation.collateralPosition (identity : Uuid) (r : Reservation) : Movements AccountId :=
  [(available r.memberId, -(if r.collateralOutcome = some .returned then 0 else r.amount)),
   (held identity, if r.collateralOutcome = none then r.amount else 0),
   (pot r.creationRound, if r.collateralOutcome = some .forfeited then r.amount else 0)]

/-- The fee ceiling is committed until the actual fee is known. -/
def Reservation.feePosition (identity : Uuid) (r : Reservation) : Movements AccountId :=
  [(operatorFees, -(r.feeActual.getD r.feeLimit)),
   (committedFee identity, if r.feeActual = none then r.feeLimit else 0),
   (.external .protocol .TIG, r.feeActual.getD 0)]

def Reservation.position (identity : Uuid) (r : Reservation) : Movements AccountId :=
  r.collateralPosition identity ++ r.feePosition identity

/-- Does the transfer bring money into this wallet? -/
def Transfer.incoming (wallet : Option Address) (t : Transfer) : Bool :=
  some t.recipient = wallet ∧ some t.sender ≠ wallet

/-- A transfer that was received came from outside and belongs to nobody, until
its attribution says whose it is. -/
def Transfer.position (received : Bool) (t : Transfer) : Movements AccountId :=
  (if received then receiptMovements t.amount else []) ++
    t.attribution.elim [] fun a => attributionMovements t.amount a.destination

/-- What a settlement gives to the operator and to the members. -/
def RoundSettlement.shares (s : RoundSettlement) : Movements AccountId :=
  (.operator .custody .TIG, s.operatorAllocation) ::
    s.memberAllocations.map fun a => (available a.1, a.2)

def RoundEarnings.position (round : ℕ) (e : RoundEarnings) : Movements AccountId :=
  let reimbursed : ℤ := e.reimbursement.elim 0 (·.amount)
  [(.operator .custody .TIG, -reimbursed), (pot round, reimbursed)] ++
    e.settlement.elim [] fun s => (pot round, -s.pot) :: s.shares

/-- A withdrawal leaves its source, waits, and goes outside or comes back. -/
def Withdrawal.position (identity : Uuid) (w : Withdrawal) : Movements AccountId :=
  [(Withdrawals.source w, -(if w.state.isPending ∨ w.state = .paid then w.amount else 0)),
   (Withdrawals.pending identity, if w.state.isPending then w.amount else 0),
   (.external .custody .TIG, if w.state = .paid then w.amount else 0)]

def WithdrawalAttempt.position (identity : Uuid) (a : WithdrawalAttempt) : Movements AccountId :=
  [(Withdrawals.gasHold identity, if a.outcome = none then a.feeLimit else 0)]

/-- The cash leg of a top-up has left, or is on its way. -/
def TopupState.committed : TopupState → Bool
  | .uncertain | .awaitingProtocol | .credited => true
  | .failed | .cancelled => false

/-- The cash leg of a top-up has left. -/
def TopupState.sent : TopupState → Bool
  | .awaitingProtocol | .credited => true
  | .uncertain | .failed | .cancelled => false

/-- A top-up leaves the operator's cash, waits, goes outside, and arrives again as
protocol balance. -/
def ProtocolTopup.position (identity : Uuid) (t : ProtocolTopup) : Movements AccountId :=
  [(.operator .custody .TIG, -(if t.state.committed then t.amount else 0)),
   (Topups.held identity .TIG, if t.state = .uncertain then t.amount else 0),
   (Topups.held identity .NATIVE, if t.state = .uncertain then t.feeLimit else 0),
   (.external .custody .TIG, if t.state.sent then t.amount else 0),
   (.external .protocol .TIG, -(if t.credit.isSome then t.amount else 0)),
   (operatorFees, if t.credit.isSome then t.amount else 0)]

def OpeningBaseline.position (b : OpeningBaseline) : Movements AccountId :=
  [(.external .custody .TIG, -b.tig), (.operator .custody .TIG, b.tig)]

/-- An opening credit of the protocol balance. -/
def openingPosition (amount : ℕ) : Movements AccountId :=
  [(.external .protocol .TIG, -amount), (operatorFees, amount)]

/-! ## The books -/

/-- `deposits.receive` has credited the event. -/
def Ledger.received (ledger : Ledger) (e : EventId) : Bool :=
  (ledger.journals.lookup (.receipt e)).isSome

namespace Funds

def wallet (f : Funds) : Option Address :=
  f.custodyIdentity.map (·.wallet)

def bookedReservations (f : Funds) (a : AccountId) : ℤ :=
  f.reservations.total fun id r => moved (r.position id) a

def bookedTransfers (f : Funds) (a : AccountId) : ℤ :=
  f.transfers.total fun e t => moved (t.position (f.ledger.received e)) a

def bookedEarnings (f : Funds) (a : AccountId) : ℤ :=
  f.roundEarnings.total fun n e => moved (e.position n) a

def bookedWithdrawals (f : Funds) (a : AccountId) : ℤ :=
  f.withdrawals.total fun id w => moved (w.position id) a

def bookedAttempts (f : Funds) (a : AccountId) : ℤ :=
  f.withdrawalAttempts.total fun id w => moved (w.position id) a

def bookedTopups (f : Funds) (a : AccountId) : ℤ :=
  f.protocolTopups.total fun id t => moved (t.position id) a

def bookedOpenings (f : Funds) (a : AccountId) : ℤ :=
  moved (f.openingBaseline.elim [] (·.position)) a +
    (f.protocolOpeningCredits.total (fun _ c => moved (openingPosition c.amount) a) +
      f.mainnetOpeningCredits.total fun _ c => moved (openingPosition c.amount) a)

/-- What all rows together say should be on an account. -/
def booked (f : Funds) (a : AccountId) : ℤ :=
  f.bookedReservations a + f.bookedTransfers a + f.bookedEarnings a + f.bookedWithdrawals a +
    f.bookedAttempts a + f.bookedTopups a + f.bookedOpenings a

/-- Accounts whose balance the rows determine. -/
def Tracked (a : AccountId) : Prop :=
  a ≠ .operator .custody .NATIVE ∧ a ≠ .external .custody .NATIVE

/-- The ledger agrees with the books. -/
def Reconciled (f : Funds) : Prop :=
  ∀ a, Tracked a → f.ledger.balance a = f.booked a

/-- The funds of a database that holds nothing yet. -/
def empty : Funds where
  ledger := ⟨∅, ∅⟩
  members := ∅
  multiplierChanges := ∅
  reservations := ∅
  protocolIdentity := none
  custodyIdentity := none
  transfers := ∅
  chainTransactions := ∅
  custodySends := ∅
  withdrawals := ∅
  withdrawalAttempts := ∅
  protocolTopups := ∅
  fundingCaptures := ∅
  topupFacts := ∅
  fundingAlerts := []
  chainStream := none
  chainBatches := []
  openingBaseline := none
  protocolOpeningCredits := ∅
  mainnetOpeningCredits := ∅
  nativeInternalReceipts := ∅
  roundEarnings := ∅

theorem empty_reconciled : empty.Reconciled := fun _ _ => rfl

end Funds

end TigPool
