/-
# `TigPool.Changes` — everything that can happen to the funds

An abstract machine over the money tables.  Its labels, `Change`, say what
happened; its steps, `Funds.Step`, say under which conditions it happens, what it
does to the rows and what it posts.  Every operation of the service, idempotent
replays and error paths included, is a run of this machine of a few steps — most
often one, for a replay none.  So an invariant of the funds is proved by cases
over the steps below, and never by looking into an operation again.

| rows | changes |
|------|---------|
| accounts, journals | `opened`, `corrected`, `nativeFunded` |
| members | `memberPut` |
| identities, captures | `custodyBound`, `fundingRecorded`, `batchRecorded` |
| transfers, transactions | `transferSaved`, `transactionSaved`, `received`, `attributed`, `rewarded` |
| reservations | `reserved`, `progressed`, `accepted`, `unstarted`, `unhanded`, `finalized` |
| rounds | `declared`, `reimbursed`, `settled` |
| withdrawals, attempts | `requested`, `approved`, `released`, `begun`, `reconciled` |
| top-ups | `topupBegun`, `topupReconciled`, `topupCredited` |
| openings | `streamOpened`, `protocolOpened`, `mainnetOpened` |
-/
import TigPool.Books
import TigPool.Basis.Runs

namespace TigPool

open Basis

/-- What has happened. -/
inductive Change where
  | opened (a : AccountId)
  | corrected
  | nativeFunded
  | custodyBound
  | fundingRecorded
  | batchRecorded
  | memberPut (member : Uuid)
  | transactionSaved
  | transferSaved (event : EventId)
  | received (event : EventId)
  | attributed (event : EventId) (destination : AccountId)
  | rewarded (event : EventId) (round : ℕ)
  | reserved (reservation member : Uuid) (round : ℕ)
  | progressed (reservation : Uuid)
  | accepted (reservation : Uuid)
  | unstarted (reservation member : Uuid)
  | unhanded (reservation member : Uuid)
  | finalized (reservation : Uuid) (destination : AccountId)
  | declared (round : ℕ)
  | reimbursed (round : ℕ)
  | settled (round : ℕ) (members : List Uuid)
  | requested (withdrawal : Uuid) (source : AccountId)
  | approved (withdrawal : Uuid)
  | released (withdrawal : Uuid) (source : AccountId)
  | begun (withdrawal attempt : Uuid)
  | reconciled (withdrawal attempt : Uuid) (outcome : AttemptOutcome)
  | topupBegun (topup : Uuid)
  | topupReconciled (topup : Uuid) (state : TopupState)
  | topupCredited (topup : Uuid)
  | streamOpened
  | protocolOpened (source : String)
  | mainnetOpened (topup : String)
deriving DecidableEq

/-! ## What is posted -/

def reserveMovements (identity : Uuid) (r : Reservation) : Movements AccountId :=
  [(available r.memberId, -r.amount), (held identity, r.amount), (operatorFees, -r.feeLimit),
   (committedFee identity, r.feeLimit)]

def feeMovements (identity : Uuid) (r : Reservation) (actual : ℕ) : Movements AccountId :=
  [(committedFee identity, -r.feeLimit), (operatorFees, r.feeLimit - actual),
   (.external .protocol .TIG, actual)]

/-- The collateral goes where it belongs. -/
def resolveMovements (identity : Uuid) (r : Reservation) (destination : AccountId) :
    Movements AccountId :=
  [(held identity, -r.amount), (destination, r.amount)]

def reimburseMovements (round amount : ℕ) : Movements AccountId :=
  [(.operator .custody .TIG, -(amount : ℤ)), (pot round, amount)]

def settleMovements (round : ℕ) (s : RoundSettlement) : Movements AccountId :=
  (pot round, -(s.pot : ℤ)) :: s.shares

def requestMovements (identity : Uuid) (w : Withdrawal) : Movements AccountId :=
  [(Withdrawals.source w, -(w.amount : ℤ)), (Withdrawals.pending identity, w.amount)]

def releaseMovements (identity : Uuid) (w : Withdrawal) : Movements AccountId :=
  [(Withdrawals.pending identity, -(w.amount : ℤ)), (Withdrawals.source w, w.amount)]

def gasMovements (attempt : Uuid) (feeLimit : ℕ) : Movements AccountId :=
  [(.operator .custody .NATIVE, -(feeLimit : ℤ)), (Withdrawals.gasHold attempt, feeLimit)]

def reconcileMovements (withdrawal attempt : Uuid) (w : Withdrawal) (a : WithdrawalAttempt)
    (outcome : AttemptOutcome) (fee : ℕ) : Movements AccountId :=
  let paid : ℤ := if outcome = .paid then w.amount else 0
  [(Withdrawals.gasHold attempt, -(a.feeLimit : ℤ)),
   (.operator .custody .NATIVE, a.feeLimit - fee), (.external .custody .NATIVE, fee),
   (Withdrawals.pending withdrawal, -paid), (.external .custody .TIG, paid)]

def topupMovements (identity : Uuid) (t : ProtocolTopup) : Movements AccountId :=
  [(.operator .custody .TIG, -t.amount), (Topups.held identity .TIG, t.amount),
   (.operator .custody .NATIVE, -t.feeLimit), (Topups.held identity .NATIVE, t.feeLimit)]

def topupCashMovements (identity : Uuid) (t : ProtocolTopup) (sent : Bool) (fee : ℕ) :
    Movements AccountId :=
  [(Topups.held identity .TIG, -t.amount),
   (if sent then .external .custody .TIG else .operator .custody .TIG, t.amount),
   (Topups.held identity .NATIVE, -t.feeLimit), (.operator .custody .NATIVE, t.feeLimit - fee),
   (.external .custody .NATIVE, fee)]

def nativeMovements (value : ℕ) : Movements AccountId :=
  [(.external .custody .NATIVE, -(value : ℤ)), (.operator .custody .NATIVE, value)]

/-! ## Conditions on rows -/

/-- A reservation as `reserve` makes it. -/
structure Reservation.Fresh (r : Reservation) : Prop where
  state : r.state = .reserved
  slotHeld : r.slotHeld = true
  feeActual : r.feeActual = none
  outcome : r.collateralOutcome = none
  benchmarkId : r.benchmarkId = none
  handedOverAt : r.handedOverAt = none
  activeAtHeight : r.activeAtHeight = none
  finalization : r.finalization = none
  amount : (r.amount : ℤ) = ⌈(r.baseAmount : ℚ) * r.multiplier.value⌉

/-- Progress of a reservation that moves no money. -/
inductive Reservation.Progress (r : Reservation) : Reservation → Prop
  | submitting : r.state = .reserved → Progress r { r with state := .uncertain }
  | handedOver {t : Time} : r.state = .accepted → r.handedOverAt = none →
      Progress r { r with handedOverAt := some t }
  | outcome {o : DefinitiveOutcome} {height : ℕ} : r.state = .accepted →
      (o = .expired ∨ r.handedOverAt.isSome) →
      Progress r { r with state := o.state, slotHeld := false,
                          activeAtHeight := if o = .active then some height else none }

/-- The destination of a receipt that is not a round reward. -/
def depositDestination : AccountId → Bool
  | .available _ => true
  | .operator .custody .TIG => true
  | _ => false

/-- Keys under which the operator's gas money is funded. -/
def nativeKey : EventKey → Bool
  | .nativeReceipt _ _ => true
  | .nativeInternalReceipt _ _ _ => true
  | .custodyOpening _ .NATIVE => true
  | _ => false

namespace Funds

/-- What a round has received, by the events attributed to it. -/
def receivedBy (f : Funds) (round : ℕ) : ℕ :=
  f.transfers.total fun _ t => t.roundReceipt.elim 0 fun r => if r.round = round then r.amount else 0

/-- What a round has gained from the forfeited collateral of its reservations. -/
def forfeitedTo (f : Funds) (round : ℕ) : ℕ :=
  f.reservations.total fun _ r => r.finalization.elim 0 fun c =>
    if r.creationRound = round ∧ c.outcome = .forfeited then c.amount else 0

/-- The operator's reimbursement of a round. -/
def reimbursedTo (f : Funds) (round : ℕ) : ℕ :=
  (f.roundEarnings.lookup round).elim 0 fun e => e.reimbursement.elim 0 (·.amount)

/-- The event belongs to the token the pool is bound to. -/
def Bound (f : Funds) (e : EventId) : Prop :=
  f.custodyIdentity.any fun i => e.chainId = i.chainId ∧ e.token = i.token

/-- Once the captures agree, each top-up they show is a fact on record. -/
def CapturesKnown (captures : Table String FundingCapture) (facts : Table String TopupFact) :
    Prop :=
  ∀ {k c s}, captures.lookup k = some c → c.snapshot = some s →
    ∀ {id t}, s.topups.lookup id = some t → (facts.lookup id).map (·.facts) = some t

/-- A custody send that has not been paid. -/
structure FreshSend (f : Funds) (identity : Uuid) (s : CustodySend) (kind : SendKind) : Prop where
  fresh : f.custodySends.lookup identity = none
  kind : s.kind = kind
  payment : s.payment = none
  authorization : s.authorization = none
  route : some s.sender = f.wallet
  nonce : ∀ {k s'}, f.custodySends.lookup k = some s' →
    ¬ (s'.chainId = s.chainId ∧ s'.sender = s.sender ∧ s'.nonce = s.nonce)

/-- A transaction of the chain explains the send, and nothing else yet. -/
structure Explains (f : Funds) (s : CustodySend) (p : CustodyPayment) : Prop where
  unpaid : s.payment = none
  chain : p.chainId = s.chainId
  saved : (p.chainId, p.txHash) ∈ f.chainTransactions
  transaction : ∀ {k s' p'}, f.custodySends.lookup k = some s' → s'.payment = some p' →
    ¬ (p'.chainId = p.chainId ∧ p'.txHash = p.txHash)
  event : ∀ {k s' p' e}, f.custodySends.lookup k = some s' → s'.payment = some p' →
    p.transferEvent = some e → p'.transferEvent ≠ some e

/-- One step of the funds. -/
inductive Step : Funds → Change → Funds → Prop
  | opened {f : Funds} {a : AccountId} : f.ledger.accounts.lookup a = none →
      Step f (.opened a) { f with ledger := f.ledger.opened a }
  | corrected {f : Funds} {text kind : String} {m : Movements AccountId} {details : Json}
      {reverses : Option EventKey} : f.ledger.Postable (.correction text) (net m) →
      Balanced AccountId.place m →
      Step f .corrected { f with
        ledger := f.ledger.posted (.correction text) (Ledger.journalOf kind m details reverses) }
  | nativeFunded {f : Funds} {key : EventKey} {value : ℕ} {ledger : Ledger}
      {receipts : Table (ℕ × String × List ℕ) NativeInternalReceipt} : nativeKey key →
      (∀ c, key = .custodyOpening c .NATIVE → f.chainStream.isSome) →
      f.ledger.Recorded key (nativeMovements value) ledger →
      Step f .nativeFunded { f with ledger := ledger, nativeInternalReceipts := receipts }
  | custodyBound {f : Funds} {identity : CustodyIdentity} : f.custodyIdentity = none →
      Step f .custodyBound { f with custodyIdentity := some identity }
  | fundingRecorded {f : Funds} {identity : Option Address}
      {captures : Table String FundingCapture} {facts : Table String TopupFact}
      {alerts : List String} : (alerts = [] → f.fundingAlerts = []) →
      (∀ {k c}, f.fundingCaptures.lookup k = some c → captures.lookup k = some c) →
      (∀ {k t}, f.topupFacts.lookup k = some t → facts.lookup k = some t) →
      (alerts = [] → CapturesKnown f.fundingCaptures f.topupFacts → CapturesKnown captures facts) →
      Step f .fundingRecorded { f with
        protocolIdentity := identity, fundingCaptures := captures, topupFacts := facts,
        fundingAlerts := alerts }
  | batchRecorded {f : Funds} {stream : ChainStream} {batches : List String} :
      f.chainStream.isSome →
      Step f .batchRecorded { f with chainStream := some stream, chainBatches := batches }
  | memberRegistered {f : Funds} {id : Uuid} {row : Member} : f.members.lookup id = none →
      row.multiplier = .one → row.multiplierRevision = 0 → row.lastPaidAt = none →
      Step f (.memberPut id) { f with members := AList.insert id row f.members }
  | walletSet {f : Funds} {id : Uuid} {row : Member} {wallet : Address} :
      f.members.lookup id = some row →
      Step f (.memberPut id) { f with
        members := AList.insert id { row with withdrawalWallet := wallet } f.members }
  | multiplierSet {f : Funds} {id : Uuid} {row : Member} {change : MultiplierChange} :
      f.members.lookup id = some row →
      f.multiplierChanges.lookup (id, row.multiplierRevision + 1) = none →
      Step f (.memberPut id) { f with
        multiplierChanges :=
          AList.insert (id, row.multiplierRevision + 1) change f.multiplierChanges
        members := AList.insert id { row with
          multiplier := change.newValue, multiplierRevision := row.multiplierRevision + 1 } f.members }
  | transactionSaved {f : Funds} {key : ℕ × String} {row : ChainTransaction} :
      f.chainTransactions.lookup key = none →
      (∀ {k r}, f.chainTransactions.lookup k = some r →
        ¬ (k.1 = key.1 ∧ r.sender = row.sender ∧ r.nonce = row.nonce)) →
      Step f .transactionSaved
        { f with chainTransactions := AList.insert key row f.chainTransactions }
  | transferSaved {f : Funds} {e : EventId} {t : Transfer} : f.transfers.lookup e = none →
      f.Bound e → t.attribution = none → t.roundReceipt = none →
      Step f (.transferSaved e) { f with transfers := AList.insert e t f.transfers }
  | received {f : Funds} {e : EventId} {t : Transfer} {ledger : Ledger} :
      f.transfers.lookup e = some t → t.incoming f.wallet = true →
      f.ledger.Recorded (.receipt e) (receiptMovements t.amount) ledger →
      Step f (.received e) { f with ledger := ledger }
  | attributed {f : Funds} {e : EventId} {t : Transfer} {a : TransferAttribution}
      {ledger : Ledger} : f.transfers.lookup e = some t → t.incoming f.wallet = true →
      t.attribution = none → depositDestination a.destination →
      f.ledger.Recorded (.attribution e) (attributionMovements t.amount a.destination) ledger →
      Step f (.attributed e a.destination) { f with
        ledger := ledger
        transfers := AList.insert e { t with attribution := some a } f.transfers }
  | rewarded {f : Funds} {e : EventId} {t : Transfer} {a : TransferAttribution} {r : RoundReceipt}
      {earnings : RoundEarnings} {ledger : Ledger} : f.transfers.lookup e = some t →
      t.incoming f.wallet = true → t.attribution = none → a.destination = pot r.round →
      r.amount = t.amount → f.roundEarnings.lookup r.round = some earnings →
      earnings.settlement = none →
      f.receivedBy r.round + t.amount ≤ earnings.expectedReceivedNet →
      f.ledger.Recorded (.attribution e) (attributionMovements t.amount (pot r.round)) ledger →
      Step f (.rewarded e r.round) { f with
        ledger := ledger
        transfers :=
          AList.insert e { t with attribution := some a, roundReceipt := some r } f.transfers }
  | reserved {f : Funds} {id : Uuid} {r : Reservation} {member : Member} {ledger : Ledger} :
      f.reservations.lookup id = none → r.Fresh →
      f.members.lookup r.memberId = some member → r.multiplier = member.multiplier →
      r.multiplierRevision = member.multiplierRevision →
      f.reservations.count (fun _ r' => r'.memberId = r.memberId ∧ r'.slotHeld) < 2 →
      f.ledger.Recorded (.reserve id) (reserveMovements id r) ledger →
      Step f (.reserved id r.memberId r.creationRound)
        { f with ledger := ledger, reservations := AList.insert id r f.reservations }
  | progressed {f : Funds} {id : Uuid} {r r' : Reservation} :
      f.reservations.lookup id = some r → r.Progress r' →
      Step f (.progressed id) { f with reservations := AList.insert id r' f.reservations }
  | accepted {f : Funds} {id : Uuid} {r : Reservation} {actual : ℕ} {benchmarkId : String}
      {assignment : Json} {ledger : Ledger} : f.reservations.lookup id = some r →
      r.state = .uncertain → actual ≤ r.feeLimit →
      (∀ {k r'}, f.reservations.lookup k = some r' → r'.benchmarkId ≠ some benchmarkId) →
      f.ledger.Recorded (.fee id) (feeMovements id r actual) ledger →
      Step f (.accepted id) { f with
        ledger := ledger
        reservations := AList.insert id { r with
          feeActual := some actual, state := .accepted, benchmarkId := some benchmarkId,
          assignment := some assignment, assignmentDigest := some assignment } f.reservations }
  | unstarted {f : Funds} {id : Uuid} {r : Reservation} {state : ReservationState} {actual : ℕ}
      {ledger ledger' : Ledger} : f.reservations.lookup id = some r →
      (r.state = .uncertain ∧ state = .rejected ∨ r.state = .reserved ∧ state = .cancelled) →
      actual ≤ r.feeLimit →
      f.ledger.Recorded (.fee id) (feeMovements id r actual) ledger →
      ledger.Recorded (.collateralReturn id) (resolveMovements id r (available r.memberId)) ledger' →
      Step f (.unstarted id r.memberId) { f with
        ledger := ledger'
        reservations := AList.insert id { r with
          feeActual := some actual, state, slotHeld := false,
          collateralOutcome := some .returned } f.reservations }
  | unhanded {f : Funds} {id : Uuid} {r : Reservation} {ledger : Ledger} :
      f.reservations.lookup id = some r → r.state = .accepted → r.handedOverAt = none →
      f.ledger.Recorded (.unhandedReturn id) (resolveMovements id r (available r.memberId)) ledger →
      Step f (.unhanded id r.memberId) { f with
        ledger := ledger
        reservations := AList.insert id { r with
          state := .cancelled, slotHeld := false, collateralOutcome := some .returned }
          f.reservations }
  | finalized {f : Funds} {id : Uuid} {r : Reservation} {c : CollateralFinalization}
      {destination : AccountId} {ledger : Ledger} : f.reservations.lookup id = some r →
      (r.state = .active ∨ r.state = .verificationFailed ∨ r.state = .expired) →
      r.collateralOutcome = none → c.amount = r.amount →
      (c.outcome = .returned ∧ destination = available r.memberId ∨
        c.outcome = .forfeited ∧ destination = pot r.creationRound) →
      f.ledger.Recorded (.finalize id) (resolveMovements id r destination) ledger →
      Step f (.finalized id destination) { f with
        ledger := ledger
        reservations := AList.insert id { r with
          collateralOutcome := some c.outcome, finalization := some c } f.reservations }
  | declared {f : Funds} {n : ℕ} {e : RoundEarnings} : f.roundEarnings.lookup n = none →
      e.reimbursement = none → e.settlement = none → pot n ∈ f.ledger.accounts →
      Step f (.declared n) { f with roundEarnings := AList.insert n e f.roundEarnings }
  | reimbursed {f : Funds} {n : ℕ} {e : RoundEarnings} {ledger : Ledger} :
      f.roundEarnings.lookup n = some e → e.reimbursement = none → e.settlement = none →
      f.ledger.Recorded (.reimburse n) (reimburseMovements n e.withheldOperatingCost) ledger →
      Step f (.reimbursed n) { f with
        ledger := ledger
        roundEarnings := AList.insert n
          { e with reimbursement := some ⟨e.withheldOperatingCost⟩ } f.roundEarnings }
  | settled {f : Funds} {n : ℕ} {e : RoundEarnings} {s : RoundSettlement} {ledger : Ledger} :
      f.roundEarnings.lookup n = some e → e.settlement = none →
      (∀ {k r}, f.reservations.lookup k = some r → r.creationRound = n →
        r.collateralOutcome ≠ none) →
      s.pot = (f.receivedBy n + f.reimbursedTo n + f.forfeitedTo n : ℕ) →
      s.pot = (s.shares.map (·.2)).sum → (∀ share ∈ s.shares, 0 ≤ share.2) →
      f.receivedBy n = e.expectedReceivedNet → f.reimbursedTo n = e.withheldOperatingCost →
      f.ledger.Recorded (.settle n) (settleMovements n s) ledger →
      Step f (.settled n (s.memberAllocations.map (·.1))) { f with
        ledger := ledger
        roundEarnings := AList.insert n { e with settlement := some s } f.roundEarnings }
  | requested {f : Funds} {id : Uuid} {w : Withdrawal} {ledger : Ledger} :
      f.withdrawals.lookup id = none → w.state = .requested → w.paidEvent = none →
      w.review = none → (w.kind = .operator ↔ w.memberId = none) →
      (∀ {k w'}, f.withdrawals.lookup k = some w' → w'.state.isPending →
        ¬ (w'.memberId = w.memberId ∧ w'.kind = w.kind)) →
      (∀ {m row paid}, w.memberId = some m → f.members.lookup m = some row →
        row.lastPaidAt = some paid → paid + days 7 ≤ w.createdAt) →
      (∀ {m}, w.memberId = some m → m ∈ f.members) →
      f.ledger.Recorded (.withdrawalReserve id) (requestMovements id w) ledger →
      Step f (.requested id (Withdrawals.source w))
        { f with ledger := ledger, withdrawals := AList.insert id w f.withdrawals }
  | approved {f : Funds} {id : Uuid} {w : Withdrawal} {review : WithdrawalReview} :
      f.withdrawals.lookup id = some w → w.state = .requested → w.review = none →
      w.recipient ≠ review.sender →
      some review.sender = f.wallet →
      Step f (.approved id) { f with
        withdrawals :=
          AList.insert id { w with review := some review, state := .approved } f.withdrawals }
  | released {f : Funds} {id : Uuid} {w : Withdrawal} {state : WithdrawalState}
      {ledger : Ledger} : f.withdrawals.lookup id = some w →
      (w.state = .requested ∨ w.state = .approved) →
      (state = .rejected ∨ state = .cancelled) →
      f.ledger.Recorded (.withdrawalRelease id) (releaseMovements id w) ledger →
      Step f (.released id (Withdrawals.source w)) { f with
        ledger := ledger
        withdrawals := AList.insert id { w with state } f.withdrawals }
  | begun {f : Funds} {id aid : Uuid} {w : Withdrawal} {a : WithdrawalAttempt} {s : CustodySend}
      {review : WithdrawalReview} {ledger : Ledger} : f.withdrawals.lookup id = some w →
      w.state = .approved → w.review = some review → a.withdrawalId = id → a.outcome = none →
      a.sender = review.sender → a.chainId = review.chainId → a.sender = s.sender →
      w.createdAt ≤ a.sentAt → f.withdrawalAttempts.lookup aid = none → f.FreshSend aid s .withdrawal →
      f.ledger.Recorded (.attemptGas aid) (gasMovements aid a.feeLimit) ledger →
      Step f (.begun id aid) { f with
        ledger := ledger
        custodySends := AList.insert aid s f.custodySends
        withdrawalAttempts := AList.insert aid a f.withdrawalAttempts
        withdrawals := AList.insert id { w with state := .uncertain } f.withdrawals }
  | unpaid {f : Funds} {id aid : Uuid} {w : Withdrawal} {a : WithdrawalAttempt} {s : CustodySend}
      {p : CustodyPayment} {authorization : Option AuthorizationPayment}
      {result : WithdrawalAttemptOutcome} {ledger : Ledger} :
      f.withdrawalAttempts.lookup aid = some a → a.outcome = none → a.withdrawalId = id →
      f.withdrawals.lookup id = some w → w.state = .uncertain →
      f.custodySends.lookup aid = some s → f.Explains s p → p.transferEvent = none →
      result.outcome ≠ .paid →
      f.ledger.Recorded (.attemptReconcile aid)
        (reconcileMovements id aid w a result.outcome result.fee) ledger →
      Step f (.reconciled id aid result.outcome) { f with
        ledger := ledger
        custodySends :=
          AList.insert aid { s with payment := some p, authorization } f.custodySends
        withdrawalAttempts :=
          AList.insert aid { a with outcome := some result } f.withdrawalAttempts
        withdrawals := AList.insert id { w with state := .approved } f.withdrawals }
  | paid {f : Funds} {id aid : Uuid} {w : Withdrawal} {a : WithdrawalAttempt} {s : CustodySend}
      {p : CustodyPayment} {authorization : Option AuthorizationPayment} {e : EventId}
      {t : Transfer} {tx : ChainTransaction} {result : WithdrawalAttemptOutcome}
      {members : Table Uuid Member} {ledger : Ledger} :
      f.withdrawalAttempts.lookup aid = some a → a.outcome = none → a.withdrawalId = id →
      f.withdrawals.lookup id = some w → w.state = .uncertain →
      f.custodySends.lookup aid = some s → f.Explains s p → p.transferEvent = some e →
      f.transfers.lookup e = some t → t.amount = w.amount → t.recipient = w.recipient →
      some t.sender = f.wallet → result.outcome = .paid →
      f.chainTransactions.lookup (result.chainId, result.txHash) = some tx →
      a.sentAt ≤ tx.blockTimestamp + seconds 5 →
      (∀ {k w'}, f.withdrawals.lookup k = some w' → w'.paidEvent ≠ some e) →
      (∀ m, members.lookup m = (f.members.lookup m).map fun row =>
        if w.memberId = some m then { row with lastPaidAt := some tx.blockTimestamp } else row) →
      f.ledger.Recorded (.attemptReconcile aid)
        (reconcileMovements id aid w a .paid result.fee) ledger →
      Step f (.reconciled id aid .paid) { f with
        ledger := ledger
        members := members
        custodySends :=
          AList.insert aid { s with payment := some p, authorization } f.custodySends
        withdrawalAttempts :=
          AList.insert aid { a with outcome := some result } f.withdrawalAttempts
        withdrawals := AList.insert id { w with state := .paid, paidEvent := some e } f.withdrawals }
  | topupBegun {f : Funds} {id : Uuid} {t : ProtocolTopup} {s : CustodySend} {ledger : Ledger} :
      f.protocolTopups.lookup id = none → t.state = .uncertain → t.credit = none →
      f.FreshSend id s .protocolTopup →
      f.ledger.Recorded (.topupReserve id) (topupMovements id t) ledger →
      Step f (.topupBegun id) { f with
        ledger := ledger
        custodySends := AList.insert id s f.custodySends
        protocolTopups := AList.insert id t f.protocolTopups }
  | topupReconciled {f : Funds} {id : Uuid} {t : ProtocolTopup} {s : CustodySend}
      {p : CustodyPayment} {authorization : Option AuthorizationPayment} {state : TopupState}
      {ledger : Ledger} :
      f.protocolTopups.lookup id = some t → t.state = .uncertain →
      f.custodySends.lookup id = some s → f.Explains s p →
      (state = .failed ∨ state = .cancelled) ∧ p.transferEvent = none ∨
        state = .awaitingProtocol ∧ (∃ e row tx, p.transferEvent = some e ∧ e.txHash = p.txHash ∧
          f.transfers.lookup e = some row ∧ row.amount = t.amount ∧ some row.sender = f.wallet ∧
          f.chainTransactions.lookup (p.chainId, p.txHash) = some tx ∧
          t.preflightBlock < tx.blockNumber) →
      f.ledger.Recorded (.topupCash id) (topupCashMovements id t state.sent p.fee) ledger →
      Step f (.topupReconciled id state) { f with
        ledger := ledger
        custodySends := AList.insert id { s with payment := some p, authorization } f.custodySends
        protocolTopups := AList.insert id { t with state } f.protocolTopups }
  | topupCredited {f : Funds} {id : Uuid} {t : ProtocolTopup} {s : CustodySend}
      {p : CustodyPayment} {c : TopupCredit} {topup : ConfirmedTopup} {ledger : Ledger} :
      f.protocolTopups.lookup id = some t → t.state = .awaitingProtocol → t.credit = none →
      f.custodySends.lookup id = some s → s.payment = some p →
      p.transferEvent = some c.transferEvent →
      (∀ {k t' c'}, f.protocolTopups.lookup k = some t' → t'.credit = some c' →
        c'.topupId ≠ c.topupId ∧ c'.transferEvent ≠ c.transferEvent) →
      f.fundingAlerts = [] →
      (CapturesKnown f.fundingCaptures f.topupFacts →
        (f.topupFacts.lookup c.topupId).map (·.facts) = some topup) →
      topup.txHash = c.transferEvent.txHash → topup.logIndex = c.transferEvent.logIndex →
      f.ledger.Recorded (.topupProtocol id) (openingPosition t.amount) ledger →
      Step f (.topupCredited id) { f with
        ledger := ledger
        protocolTopups :=
          AList.insert id { t with state := .credited, credit := some c } f.protocolTopups }
  | streamOpened {f : Funds} {stream : ChainStream} {baseline : Option OpeningBaseline}
      {capture : String} {ledger : Ledger} : f.chainStream = none →
      f.ledger.Recorded (.custodyOpening capture .TIG) (baseline.elim [] (·.position)) ledger →
      Step f .streamOpened { f with
        ledger := ledger, chainStream := some stream, openingBaseline := baseline }
  | protocolOpened {f : Funds} {source : String} {c : ProtocolOpeningCredit} {ledger : Ledger} :
      f.protocolOpeningCredits.lookup source = none →
      f.ledger.Recorded (.protocolOpening source) (openingPosition c.amount) ledger →
      Step f (.protocolOpened source) { f with
        ledger := ledger
        protocolOpeningCredits := AList.insert source c f.protocolOpeningCredits }
  | mainnetOpened {f : Funds} {topupId : String} {c : MainnetOpeningCredit}
      {topup : ConfirmedTopup} {ledger : Ledger} :
      f.mainnetOpeningCredits.lookup topupId = none →
      f.protocolTopups.entries = [] →
      f.fundingAlerts = [] →
      (CapturesKnown f.fundingCaptures f.topupFacts →
        (f.topupFacts.lookup topupId).map (·.facts) = some topup) →
      topup.txHash = c.txHash → topup.logIndex = c.logIndex →
      f.ledger.Recorded (.mainnetPrelaunch topupId) (openingPosition c.amount) ledger →
      Step f (.mainnetOpened topupId) { f with
        ledger := ledger
        mainnetOpeningCredits := AList.insert topupId c f.mainnetOpeningCredits }

/-- Changes of the kinds in `L` lead from `f` to `f'`. -/
abbrev Path (L : Change → Prop) (f f' : Funds) : Prop :=
  Leads Step (fun _ c => L c) f f'

end Funds

end TigPool
