/-
# `TigPool.Settlement` — collateral finalization and exact round reward allocation

A round's pot has three sources: net rewards received for it, the operator's
reimbursement of what was withheld for operating cost, and collateral forfeited
by benchmarks created in it.  `allocate` empties it once, and its inputs are
frozen with it.

`allocate` and `preview` run in several transactions: they read whether the round
has settled, then the coverage, then the credits, and only then take the locks
under which the rest happens.  What was read before is an argument, `credits`.
-/
import TigPool.Observation

namespace TigPool

open Basis

/-- The account of a round's pot. -/
abbrev pot (round : ℕ) : AccountId := .round round

namespace Settlement

def rule : String := "round-credit-five-percent-v1"

/-! ## Collateral -/

/-- A report on the benchmark of the reservation is decided and agrees with its assignment. -/
def checkReport (row : Reservation) (report : SealedReport) : Result Unit := do
  require (report.result ≠ none) (.conflict "this benchmark still has unresolved arbitration")
  let player ← fetch ((row.assignment.bind (·.get? "settings")).bind (·.get? "player_id"))
    (.conflict "complete benchmark metadata is needed to reconcile this report")
  require (player = .str report.benchmarker)
    (.conflict "report ownership or nonce differs from the stored assignment")
  let count ← fetch ((row.assignment.bind (·.get? "num_nonces")).bind Json.number)
    (.conflict "complete benchmark metadata is needed to reconcile this report")
  require (count.atMost (.finite report.nonce) = false)
    (.conflict "report ownership or nonce differs from the stored assignment")

/-- What the sealed reports decide about a reservation's collateral. -/
def collateralDecision (row : Reservation) (related : List SealedReport) :
    Result CollateralOutcome :=
  if row.handedOverAt = none then do
    require (row.state = .expired) (.conflict "unhanded work requires reconciled definitive expiry")
    return .returned
  else if row.activeAtHeight = none ∨ related.any (·.result = some .nonreproducible) then
    return .forfeited
  else return .returned

/-- Finalize one known outcome independently of reward-credit coverage. -/
def finalizeCollateral (db : Db) (identity sealId : Uuid) :
    Result (Db × Option CollateralFinalization) := do
  let row ← fetch (db.funds.reservations.lookup identity) (.funds "unknown collateral reservation")
  if row.finalization.isSome ∨ row.collateralOutcome.isSome then
    return (db, row.finalization)
  else
    let report ← Reports.requireSeal db sealId row.creationRound
    require ((row.state = .active ∨ row.state = .verificationFailed ∨ row.state = .expired) ∧
        row.slotHeld = false)
      (.conflict "a definitive benchmark outcome is still missing")
    let related := (report.reports.map (·.2)).filter fun r => some r.benchmarkId = row.benchmarkId
    related.forM (checkReport row)
    let outcome ← collateralDecision row related
    let (ledger, destination) ← if outcome = .returned then
        .ok (db.funds.ledger, available row.memberId)
      else do
        let ledger ← db.funds.ledger.account (pot row.creationRound) .round
        pure (ledger, pot row.creationRound)
    let name := match outcome with | .returned => "returned" | .forfeited => "forfeited"
    let ledger ← if row.amount ≠ 0 then
        ledger.post (.finalize identity) ("collateral_" ++ name)
          [(held identity, -row.amount), (destination, row.amount)]
          (.obj [("creation_round", .int row.creationRound), ("outcome", .str name),
            ("report_seal_id", .str sealId), ("reservation_id", .str identity)])
      else .ok ledger
    let final : CollateralFinalization := { outcome, amount := row.amount, reportSealId := sealId }
    let db ← event ((db.withLedger ledger).putReservation identity
        { row with collateralOutcome := some outcome, finalization := some final })
      identity .collateralFinalized
      (.obj [("amount", .int row.amount), ("outcome", .str name), ("report_seal_id", .str sealId)])
    return (db, some final)

/-! ## Funding a pot -/

/-- Freeze what a round is expected to receive.  Estimates never create funds. -/
def declareEarnings (db : Db) (round : ℤ) (expectedReceivedNet withheldOperatingCost : ℤ)
    (blockId : String) (evidence : Json) : Result (Db × RoundEarnings) := do
  let round ← units round true
  let net ← units expectedReceivedNet
  let cost ← units withheldOperatingCost
  require (evidence.truthy = true)
    (.funds "final round earnings require protocol attribution evidence")
  Reports.deadline db round blockId
  Reports.requireBlock db blockId
  match db.funds.roundEarnings.lookup round with
  | some previous =>
      require (previous.expectedReceivedNet = net ∧ previous.withheldOperatingCost = cost ∧
          previous.evidence = evidence)
        (.conflict "final round earnings are already frozen")
      return (db, previous)
  | none =>
      let ledger ← db.funds.ledger.account (pot round) .round
      let row : RoundEarnings :=
        { expectedReceivedNet := net, withheldOperatingCost := cost, blockId, evidence }
      return ((db.withLedger ledger).putEarnings round row, row)

/-- The receipts attributed to a round. -/
def receiptsOf (db : Db) (round : ℕ) : List (EventId × ℕ) :=
  db.funds.transfers.entries.filterMap fun e => e.2.roundReceipt.bind fun r =>
    if r.round = round then some (e.1, r.amount) else none

/-- Move a verified, unmatched incoming reward event into its frozen round. -/
def attributeReceipt (db : Db) (round : ℤ) (transfer : ConfirmedTransfer) (evidence : Json) :
    Result (Db × RoundReceipt) := do
  let round ← units round true
  let _ ← units transfer.amount true
  require (evidence.truthy = true)
    (.funds "reward receipt requires verified protocol-round attribution")
  require (transfer.recipient = transfer.network.custody ∧
      transfer.sender ≠ transfer.network.custody)
    (.funds "reward receipt must be incoming to configured custody")
  let db ← Custody.bind db transfer.network
  match (db.funds.transfers.lookup transfer.eventId).bind (·.roundReceipt) with
  | some previous =>
      require (previous.round = round ∧ previous.amount = transfer.amount)
        (.conflict "reward receipt already belongs to a different round")
      let db ← Deposits.saveTransfer db transfer
      return (db, previous)
  | none =>
      let earnings ← fetch (db.funds.roundEarnings.lookup round)
        (.conflict "final earnings must be attributed before their receipts")
      require (earnings.settlement = none) (.conflict "round has already settled")
      let row ← fetch (db.funds.transfers.lookup transfer.eventId)
        (.conflict "receipt must first be observed by the confirmed transfer indexer")
      let db ← Deposits.saveTransfer db transfer
      require (row.attribution = none)
        (.conflict "receipt is already assigned; deposits cannot also become round rewards")
      require (((receiptsOf db round).map (·.2)).sum + transfer.amount
        ≤ earnings.expectedReceivedNet)
        (.conflict "receipts exceed the declared final net round earnings")
      let db ← Deposits.attributeTransfer db transfer (pot round) "protocol-reward-adapter" evidence
      let receipt : RoundReceipt := { round, amount := transfer.amount, evidence }
      let row ← fetch (db.funds.transfers.lookup transfer.eventId)
        (.integrity "round_receipts_event_id_fkey")
      return (db.putTransfer transfer.eventId { row with roundReceipt := some receipt }, receipt)

/-- Use actual available operator funds, never a promised reimbursement. -/
def reimburseOperatingCost (db : Db) (round : ℕ) : Result (Db × RoundReimbursement) := do
  let earnings ← fetch (db.funds.roundEarnings.lookup round)
    (.conflict "final round operating-charge classification is missing")
  match earnings.reimbursement with
  | some previous => return (db, previous)
  | none =>
      require (earnings.settlement = none) (.conflict "round has already settled")
      let amount := earnings.withheldOperatingCost
      let ledger ← if amount ≠ 0 then
          db.funds.ledger.post (.reimburse round) "operator_cost_reimbursement"
            [(.operator .custody .TIG, -amount), (pot round, amount)]
            (.obj [("round", .int round), ("withheld_operating_cost", .int amount)])
        else .ok db.funds.ledger
      let row : RoundReimbursement := { amount }
      return ((db.withLedger ledger).putEarnings round { earnings with reimbursement := some row },
        row)

/-! ## Settlement -/

/-- The forfeitures of the reservations created in a round. -/
def forfeituresOf (db : Db) (round : ℕ) : List (Uuid × ℕ) :=
  db.funds.reservations.entries.filterMap fun e => e.2.finalization.bind fun f =>
    if e.2.creationRound = round ∧ f.outcome = .forfeited then some (e.1, f.amount) else none

/-- Rows by their key, in key order. -/
def sorted {α : Type} (table : Table String α) : List (String × α) :=
  (table.entries.map fun e => (e.1, e.2)).insertionSort fun a b => a.1 ≤ b.1

/-- Do two settlements have the same inputs, and so the same digest? -/
def sameInputs (a b : SettlementInputs) : Bool :=
  a.receipts.isPerm b.receipts ∧ a.forfeitures.isPerm b.forfeitures ∧
    a = { b with receipts := a.receipts, forfeitures := a.forfeitures }

def inputsJson (inputs : SettlementInputs) : Json :=
  .obj [("cost_reimbursement", .int inputs.costReimbursement),
    ("credits", .obj (inputs.credits.map fun c =>
      (c.1, .arr [.int c.2.num, .int c.2.den]))),
    ("expected_received_net", .int inputs.expectedReceivedNet),
    ("forfeitures", .obj (inputs.forfeitures.map fun f => (f.1, .int f.2))),
    ("missing_block_policy", .obj [("max_missing_per_round", .int inputs.maxMissingPerRound),
      ("policy", .str inputs.missingBlockPolicy), ("revision", .int inputs.policyRevision)]),
    ("missing_heights", .arr (inputs.missingHeights.map fun h => .int h)),
    ("receipts", .arr (inputs.receipts.map fun r => .arr [r.1.json, .int r.2])),
    ("report_seal_id", .str inputs.reportSealId), ("round", .int inputs.round),
    ("rule", .str inputs.rule),
    ("waived_heights", .arr (inputs.waivedHeights.map fun h => .int h))]

/-- What the locked transaction works out for a round that has not settled. -/
def prepare (db : Db) (round : ℕ) (sealId : Uuid) (credits : Table String ℚ) :
    Result (SettlementInputs × ℤ × ℤ × Table String ℤ) := do
  let _ ← Reports.requireSeal db sealId round
  -- Recheck coverage while the observer cannot add a conflicting block.
  let coverage ← BlockStore.roundGaps db round
  require (coverage.creditedComplete = true)
    (.conflict "reward-round credit coverage is incomplete")
  let earnings ← fetch (db.funds.roundEarnings.lookup round)
    (.conflict "final net earnings are not established")
  Reports.requireBlock db earnings.blockId
  require (db.funds.reservations.any (fun _ r =>
      r.creationRound = round ∧ r.collateralOutcome = none) = false)
    (.conflict "creation-round collateral outcomes are still unresolved")
  let receipts := receiptsOf db round
  let received := (receipts.map (·.2)).sum
  require (received = earnings.expectedReceivedNet)
    (.conflict "final reward receipts have not all been received")
  let reimbursed := earnings.reimbursement.elim 0 (·.amount)
  require (reimbursed = earnings.withheldOperatingCost)
    (.conflict "operator funding has not replaced withheld operating charges")
  let forfeitures := forfeituresOf db round
  let amount : ℤ := (received + reimbursed + (forfeitures.map (·.2)).sum : ℕ)
  let account ← fetch (db.funds.ledger.accounts.lookup (pot round)) (.malformed "no round account")
  require (account.balance = amount)
    (.conflict "round account differs from its complete funding inputs")
  let (operator, allocations) ← allocateRewards amount credits
  require (∀ m ∈ allocations.keys, m ∈ db.funds.members) (.funds "unknown member")
  let inputs : SettlementInputs :=
    { round, rule, reportSealId := sealId, credits := sorted credits, receipts,
      costReimbursement := reimbursed, forfeitures,
      expectedReceivedNet := earnings.expectedReceivedNet,
      missingHeights := coverage.missingHeights, waivedHeights := coverage.waivedHeights,
      missingBlockPolicy := coverage.policy.policy, policyRevision := coverage.policy.revision,
      maxMissingPerRound := coverage.policy.maxMissingPerRound }
  return (inputs, amount, operator, allocations)

/-- The settlement on record, if it is the one that was reviewed. -/
def replay (settled : RoundSettlement) (expected : Option SettlementInputs) :
    Result RoundSettlement := do
  require (expected.all (sameInputs settled.inputs ·) = true)
    (.conflict "settlement differs from the reviewed preview")
  return settled

/-- Calculate ready, fully funded allocations without posting or reserving funds. -/
def preview (db : Db) (round : ℕ) (sealId : Uuid) (credits : Table String ℚ) :
    Result RoundSettlement := do
  require (0 < round) (.funds "expected positive integer units")
  match (db.funds.roundEarnings.lookup round).bind (·.settlement) with
  | some settled => return settled
  | none =>
      let (inputs, amount, operator, allocations) ← prepare db round sealId credits
      return { rule, inputs, pot := amount, operatorAllocation := operator,
               memberAllocations := sorted allocations }

/-- Credit one complete reward round, even if no benchmark was created in it. -/
def allocate (db : Db) (round : ℕ) (sealId : Uuid) (credits : Table String ℚ)
    (expected : Option SettlementInputs) : Result (Db × RoundSettlement) := do
  require (0 < round) (.funds "expected positive integer units")
  match (db.funds.roundEarnings.lookup round).bind (·.settlement) with
  | some settled =>
      let settled ← replay settled expected
      return (db, settled)
  | none =>
      let (inputs, amount, operator, allocations) ← prepare db round sealId credits
      require (expected.all (sameInputs inputs ·) = true)
        (.conflict "settlement inputs changed; review a fresh preview")
      let earnings ← fetch (db.funds.roundEarnings.lookup round)
        (.conflict "final net earnings are not established")
      let ledger ← if amount ≠ 0 then
          db.funds.ledger.post (.settle round) "round_rewards"
            ([(pot round, -amount), (.operator .custody .TIG, operator)] ++
              (sorted allocations).map fun a => (available a.1, a.2))
            (inputsJson inputs)
        else .ok db.funds.ledger
      let row : RoundSettlement :=
        { rule, inputs, pot := amount, operatorAllocation := operator,
          memberAllocations := sorted allocations }
      return ((db.withLedger ledger).putEarnings round { earnings with settlement := some row }, row)

end Settlement

end TigPool
